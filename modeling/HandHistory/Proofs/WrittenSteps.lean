import HandHistory.Decimal.Sign
import HandHistory.Proofs.Hands
import HandHistory.Proofs.WrittenHands

/-!
# What a written line changes

A line about a player at the table is read, and changes a draft by what it says and
by nothing else: `Line.Changes`, with a case for each kind of line in
`Line.answers_consume`. The lemmas in front of it say the same of the parts that a
line is handed to.

The one line that does not say what is written is a deal to a player called `posts`.
It is taken for the posting of a blind; `Line.read?` tells which cards are left.
-/

namespace HandHistory

open Written Reading

/-! ## Steps of a draft -/

namespace Written.Deed

theorem not_amount_lt_zero (deed : Deed) : ¬ deed.amount < 0 := by
  cases deed with
  | folds | checks => exact Amount.not_zero_lt_zero
  | bets | calls | raises => exact Decimal.not_toFloat_lt_zero _

theorem amount_of_hasAmount {deed : Deed} (nothing : deed.kind.hasAmount = false) :
    deed.amount = 0 := by
  cases deed with
  | folds | checks => rfl
  | bets | calls | raises => cases nothing

end Written.Deed

namespace Draft

variable {context : HandContext} {draft : Draft}

theorem currentStreet_ne_undealt : draft.currentStreet ≠ .undealt := by
  rw [currentStreet]
  split
  · decide
  · assumption

/-- To be on the street of now changes nothing about the street of now. -/
theorem currentStreet_of_street {after : Draft} (same : after.street = draft.currentStreet) :
    after.currentStreet = draft.currentStreet := by
  rw [currentStreet, same]
  exact if_neg currentStreet_ne_undealt

theorem isSeated_of_mem {name : Text} (seated : name ∈ draft.seats.toList) :
    draft.isSeated name = true :=
  List.contains_iff_mem.2 seated

/-- The draft, once no seat line may follow. -/
def closed (draft : Draft) : Draft := { draft with seatsOpen := false }

theorem consume_of_ofText {raw : Text} {line : BodyLine} (reading : draft.inSummary = false)
    (read : BodyLine.ofText draft.seatsOpen raw = line) (closes : line.keepsSeatsOpen = false) :
    draft.consume context raw = takeLine context draft.closed line := by
  rw [consume, if_neg (by simp [reading]), read]
  dsimp only
  rw [closes, Bool.and_false]
  rfl

theorem Sound.closed (sound : Sound context draft) : Sound context draft.closed :=
  ⟨sound.actionsFit, sound.winnersDiffer, sound.winnersNamed, sound.winnersSeated,
    sound.winnersFit⟩

/-- There is room for a winner who has not won yet: ten differing names would be all
that sit at the table. -/
theorem Sound.length_winners_lt (sound : Sound context draft) {name : Text}
    (seated : name ∈ draft.seats.toList) (new : name ∉ draft.winners) :
    draft.winners.length < winnerRoom := by
  have differ : (name :: draft.winners).Nodup := List.nodup_cons.2 ⟨new, sound.winnersDiffer⟩
  have inside : name :: draft.winners ⊆ draft.seats.toList := by
    intro other hother
    rcases List.mem_cons.1 hother with rfl | hother
    · exact seated
    · exact sound.winnersSeated other hother
  have few := (List.subperm_of_subset differ inside).length_le
  rw [Vector.length_toList, List.length_cons] at few
  exact few

theorem Sound.addWinner_eq (sound : Sound context draft) {name : Text}
    (seated : name ∈ draft.seats.toList) :
    draft.addWinner name = { draft with
      winners := if name ∈ draft.winners then draft.winners else draft.winners ++ [name] } := by
  by_cases known : name ∈ draft.winners
  · simp [addWinner, known]
  · have room := sound.length_winners_lt seated known
    have notFull : ¬ winnerRoom ≤ draft.winners.length := by omega
    simp [addWinner, known, notFull]

/-- The draft with one more action, on its street. -/
def acted (handId : Text) (move : Move) (draft : Draft) : Draft :=
  { draft with
    street := move.street, actions := draft.actions ++ [move.action handId draft.actions.length] }

/-- A move of a player with a name becomes the next action. -/
theorem answers_addAction {kind : ActionKind} {player : Text} {amount : Float}
    (ofHand : context.handId ≠ []) (named : player ≠ []) (notNegative : ¬ amount < 0) :
    Answers (draft.addAction context kind player amount) (.ok (draft.acted context.handId
      { player, street := draft.currentStreet, kind, amount })) := by
  have created : Action.create context.handId player draft.currentStreet kind draft.actions.length
      amount = .ok (Move.action context.handId draft.actions.length
        { player, street := draft.currentStreet, kind, amount }) := by
    simp [Action.create, ofHand, named, notNegative, currentStreet_ne_undealt, Move.action]
  rw [addAction]
  refine (answers_enrol context.file named).bind ?_
  rw [created]
  exact (answers_ofModel context.file (.ok _)).bind (answers_pure _)

theorem answers_cards (delimiter : context.cardDelimiter = " ".toList) {cards : List Card}
    (few : cards.length ≤ 5) :
    Answers (Draft.cards context (cardsText cards)) (.ok (.ofCards cards)) := by
  rw [Draft.cards]
  rw [delimiter, ofGroup_cardsText few]
  exact answers_pure _

theorem answers_takeBoard (delimiter : context.cardDelimiter = " ".toList) (shown : Board) :
    Answers (draft.takeBoard context shown.part (some (cardsText shown.dealt))) (.ok { draft with
      street := streetOf shown.part
      board := boardWith shown.part (.ofCards shown.dealt) draft.board }) := by
  rw [takeBoard]
  exact (answers_cards delimiter shown.dealt_few).bind (answers_pure _)

theorem answers_takeDealt (delimiter : context.cardDelimiter = " ".toList) (name : Name)
    {cards : List Card} (few : cards.length ≤ 5) :
    Answers (draft.takeDealt context name.text (some (cardsText cards))) (.ok { draft with
      heroCards := .ofCards cards, street := draft.currentStreet }) := by
  have named : (!name.text.isEmpty) = true := by simp [name.named]
  rw [takeDealt]
  refine (answers_cards delimiter few).bind ?_
  rw [named]
  exact (answers_markHero context.file name.named).bind (answers_pure _)

theorem answers_takeWinner (sound : Sound context draft) {name : Text} (named : name ≠ [])
    (seated : name ∈ draft.seats.toList) (line : Text) :
    Answers (draft.takeWinner context name line) (.ok { draft with
      winners := if name ∈ draft.winners then draft.winners else draft.winners ++ [name] }) := by
  rw [takeWinner]
  rw [isSeated_of_mem seated, if_pos rfl, sound.addWinner_eq seated]
  exact (answers_enrol context.file named).bind (answers_pure _)

theorem answers_takeAction (ofHand : context.handId ≠ []) {name : Text} (named : name ≠ [])
    (seated : name ∈ draft.seats.toList) {deed : Deed} {tail : Text}
    (amount : deed.kind.hasAmount = true → (Amount.last tail).value = deed.amount) (line : Text) :
    Answers (draft.takeAction context deed.kind name tail line)
      (.ok (draft.acted context.handId
        { player := name, street := draft.currentStreet, kind := deed.kind,
          amount := deed.amount })) := by
  have acts := @answers_addAction context draft deed.kind name deed.amount ofHand named
    deed.not_amount_lt_zero
  rw [takeAction]
  rw [isSeated_of_mem seated, if_pos rfl]
  dsimp only
  cases has : deed.kind.hasAmount with
  | true =>
    rw [if_pos rfl]
    refine (answers_ofLogged _).bind ?_
    rw [amount has]
    exact acts
  | false =>
    rw [if_neg (by decide), ← Deed.amount_of_hasAmount has]
    exact (answers_pure _).bind acts

end Draft

/-! ## What a line changes -/

namespace Written.Line

/-- The cards that are read of a deal: none, if they are dealt to `posts`. -/
def read? : Line → Option (List Card)
  | dealt name cards _ => if name.text = "posts".toList then none else some cards
  | _ => none

/-- What a line changes in a draft, and that it changes nothing else. -/
structure Changes (handId : Text) (line : Line) (before after : Draft) : Prop where
  seats : after.seats = before.seats := by rfl
  reading : after.inSummary = before.inSummary := by rfl
  street : after.currentStreet = line.street?.getD before.currentStreet := by rfl
  ante : after.ante = line.ante?.getD before.ante := by rfl
  heroCards : after.heroCards = (line.read?.map CardRow.ofCards).getD before.heroCards := by rfl
  board : after.board = (match line with
    | board shown => Draft.boardWith shown.part (.ofCards shown.dealt) before.board
    | _ => before.board) := by rfl
  actions : after.actions = before.actions ++
    (line.move? before.currentStreet).toList.map (Move.action handId before.actions.length)
  winners : after.winners = (line.winner?.elim before.winners fun name =>
    if name ∈ before.winners then before.winners else before.winners ++ [name]) := by rfl

variable {context : HandContext} {draft : Draft}

/-- The step: a line about a player at the table is read, and changes what it says. -/
theorem answers_consume (line : Line) (sound : draft.Sound context)
    (reading : draft.inSummary = false) (ofHand : context.handId ≠ [])
    (delimiter : context.cardDelimiter = " ".toList)
    (sits : ∀ name ∈ line.name?, name.text ∈ draft.seats.toList) :
    ∃ after, Answers (draft.consume context line.text) (.ok after) ∧
      line.Changes context.handId draft after := by
  have nothing : draft.actions = draft.actions ++ [] := (List.append_nil _).symm
  cases line with
  | blind name chips =>
    rw [text, Draft.consume_of_ofText reading (ofText_blind _) rfl]
    exact ⟨draft.closed, answers_pure _, { actions := nothing }⟩
  | ante name chips =>
    obtain ⟨read, amount⟩ := @ofText_ante name chips draft.seatsOpen
    rw [text, Draft.consume_of_ofText reading read rfl]
    exact ⟨_, (answers_ofLogged _).bind (answers_pure _), { ante := amount, actions := nothing }⟩
  | dealt name cards few =>
    have read := @ofText_dealtText name cards draft.seatsOpen
    by_cases posts : name.text = "posts".toList
    · rw [if_pos posts] at read
      rw [text, Draft.consume_of_ofText reading read rfl]
      have unread : (dealt name cards few).read? = none := if_pos posts
      exact ⟨draft.closed, answers_pure _, { heroCards := by rw [unread]; rfl, actions := nothing }⟩
    · rw [if_neg posts] at read
      rw [text, Draft.consume_of_ofText reading read rfl]
      have known : (dealt name cards few).read? = some cards := if_neg posts
      refine ⟨_, @Draft.answers_takeDealt context draft.closed delimiter name cards few, ?_⟩
      exact
        { street := Draft.currentStreet_of_street rfl
          heroCards := by rw [known]; rfl
          actions := nothing }
  | preflop holeCards =>
    rw [text, Draft.consume_of_ofText reading (ofText_preflop _ _) rfl]
    exact ⟨_, answers_pure _, { actions := nothing }⟩
  | board shown =>
    rw [text, Draft.consume_of_ofText reading (shown.ofText_text _) rfl]
    have dealt : Draft.streetOf shown.part ≠ .undealt := by
      cases shown.part <;> decide
    refine ⟨_, @Draft.answers_takeBoard context draft.closed delimiter shown, ?_⟩
    exact { street := if_neg dealt, actions := nothing }
  | deed name colon done =>
    obtain ⟨tail, read, amount⟩ := @Deed.ofText_text done name colon draft.seatsOpen
    rw [text, Draft.consume_of_ofText reading read rfl]
    refine ⟨_, @Draft.answers_takeAction context draft.closed ofHand _ name.named (sits name rfl)
      done tail amount _, ?_⟩
    exact { street := Draft.currentStreet_of_street rfl, actions := rfl }
  | collected name chips =>
    rw [text, Draft.consume_of_ofText reading (ofText_collected _) rfl]
    refine ⟨_, @Draft.answers_takeWinner context draft.closed sound.closed _ name.named
      (sits name rfl) _, ?_⟩
    exact { actions := nothing }
  | wins name chips =>
    rw [text, Draft.consume_of_ofText reading (ofText_wins _) rfl]
    refine ⟨_, @Draft.answers_takeWinner context draft.closed sound.closed _ name.named
      (sits name rfl) _, ?_⟩
    exact { actions := nothing }

end Written.Line

end HandHistory
