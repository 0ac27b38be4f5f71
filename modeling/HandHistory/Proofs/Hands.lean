import HandHistory.Decimal.Sign
import HandHistory.History
import HandHistory.Proofs.Reading

/-!
# Hands that keep the rules

Whatever the text, a hand that is read at all keeps `Hand.Sound`: its actions
are numbered, belong to players who sit at the table, and cost a number that is
not negative; its winners are a row without gaps or repetitions, and each of
them acts; and the actions that were made up for silent winners come last.

A draft is carried to that end by `Draft.InBody`. Seats are given away only
while nobody has acted or won, so a player who has done either keeps the seat.
-/

namespace HandHistory

/-- What holds of an action at a position of a hand, by the seats of the hand. -/
structure Action.Fits (handId : Text) (seats : NameRow) (index : Nat) (action : Action) : Prop where
  index_eq : action.index = index
  handId_eq : action.handId = handId
  dealt : action.street ≠ .undealt
  named : action.player ≠ []
  seated : action.player ∈ seats.toList
  isNumber : action.amount.isNaN = false
  notNegative : ¬ action.amount < 0
  nothingPaid : action.kind.hasAmount = false → action.amount = 0

/-- The names of the taken places stand in front, each of a different player who
sits at the table and acts; the actions of the silent winners come last. -/
structure Hand.Sound (hand : Hand) : Prop where
  named : hand.id ≠ []
  atTable : hand.table ≠ []
  occupied : ∃ name ∈ hand.seats.toList, name ≠ []
  actionsFit : ∀ (index : Nat) (action : Action), hand.actions[index]? = some action →
    action.Fits hand.id hand.seats index
  winnersLead : ∃ count, ∀ place : Fin 10, hand.winners[place] ≠ [] ↔ place.val < count
  winnersDiffer : hand.winnerNames.Nodup
  winnersSeated : ∀ name ∈ hand.winnerNames, name ∈ hand.seats.toList
  winnersAct : ∀ name ∈ hand.winnerNames, ∃ action ∈ hand.actions, action.player = name
  silentLast : ∃ spoken silent, hand.actions = spoken ++ silent ∧
    (∀ action ∈ spoken, action.kind ≠ .silent) ∧ (∀ action ∈ silent, action.kind = .silent) ∧
    silent.map Action.player =
      hand.winnerNames.filter fun name => !spoken.any fun action => action.player == name

/-! ## Rows of names -/

namespace NameRow

variable {names : List Text}

theorem toList_ofNames (room : names.length ≤ 10) :
    (ofNames names).toList = names ++ List.replicate (10 - names.length) [] := by
  apply List.ext_getElem?
  intro i
  simp only [ofNames, Vector.getElem?_toList, Vector.getElem?_ofFn, List.getElem?_append,
    List.getElem?_replicate]
  by_cases inside : i < names.length
  · have small : i < 10 := by omega
    simp [inside, small]
  · by_cases small : i < 10
    · have free : i - names.length < 10 - names.length := by omega
      simp [inside, small, free]
    · have free : ¬ i - names.length < 10 - names.length := by omega
      simp [inside, small, free]

/-- Names that fit into a row and are not empty are the taken places of it. -/
theorem taken_ofNames (room : names.length ≤ 10) (named : ∀ name ∈ names, name ≠ []) :
    (ofNames names).taken = names := by
  have kept : names.filter (fun name => !name.isEmpty) = names := by
    apply List.filter_eq_self.2
    intro name hname
    have := named name hname
    simpa using this
  rw [taken, toList_ofNames room, List.filter_append, kept]
  simp

theorem ofNames_ne_nil_iff (named : ∀ name ∈ names, name ≠ []) (place : Fin 10) :
    (ofNames names)[place] ≠ [] ↔ place.val < names.length := by
  have value : (ofNames names)[place] = (names[place.val]?).getD [] := by simp [ofNames]
  rw [value]
  by_cases inside : place.val < names.length
  · have hname := named _ (List.getElem_mem inside)
    simpa [inside] using hname
  · simp [inside]

end NameRow

/-! ## Single steps -/

theorem Action.create_eq_ok {handId player : Text} {street : Street} {kind : ActionKind}
    {index : Nat} {amount : Float} {action : Action}
    (created : Action.create handId player street kind index amount = .ok action) :
    action = { handId, player, street, kind, index, amount } ∧
      player ≠ [] ∧ street ≠ .undealt ∧ ¬ amount < 0 := by
  rw [Action.create] at created
  split at created
  · cases created
  · split at created
    · cases created
    · next hplayer =>
      split at created
      · cases created
      · next hstreet =>
        split at created
        · cases created
        · next hamount =>
          cases created
          exact ⟨rfl, by simpa using hplayer, hstreet, hamount⟩

theorem Amount.isNaN_zero : (0 : Float).isNaN = false := by decide +kernel

theorem Amount.not_zero_lt_zero : ¬ (0 : Float) < 0 := by decide +kernel

theorem Amount.isNaN_ofToken? {token : Text} {amount : Float}
    (found : ofToken? token = some amount) : amount.isNaN = false := by
  obtain ⟨d, _, rfl⟩ := Option.map_eq_some_iff.1 found
  exact d.isNaN_toFloat

/-- The last amount of a text is a number, also where there is none. -/
theorem Amount.isNaN_last (line : Text) : (last line).value.isNaN = false := by
  rw [last]
  split
  · next amount found =>
    obtain ⟨token, _, htoken⟩ := List.exists_of_findSome?_eq_some found
    exact isNaN_ofToken? htoken
  · exact isNaN_zero

namespace BodyLine

/-- A line that neither gives a seat away nor tells of a silent winner. -/
def IsSpoken : BodyLine → Prop
  | .seat .. => False
  | .action kind .. => kind ≠ .silent
  | _ => True

theorem isSpoken_ofAction (line : Text) : (ofAction line).IsSpoken := by
  have words : ∀ word ∈ actionWords, word.2 ≠ .silent := by decide
  rw [ofAction]
  dsimp only
  split
  · next kind front tail found =>
    obtain ⟨word, hword, hcut⟩ := List.exists_of_findSome?_eq_some found
    obtain ⟨_, _, same⟩ := Option.map_eq_some_iff.1 hcut
    cases same
    exact words word hword
  · trivial

theorem isSpoken_ofMarker (line : Text) : (ofMarker line).IsSpoken := by
  rw [ofMarker]
  split <;> [skip; split <;> [skip; split <;> [skip; split]]] <;> trivial

theorem isSpoken_ofOpenText (line : Text) : (ofOpenText line).IsSpoken := by
  rw [ofOpenText]
  split
  · exact isSpoken_ofMarker line
  · split
    · trivial
    · split
      · trivial
      · split
        · rw [ofDealt]
          split <;> trivial
        · rw [ofWinner?]
          cases winnerWords.findSome? fun words => Text.cut? words line with
          | some found => trivial
          | none => exact isSpoken_ofAction line

/-- Only a line that is read while seats are open gives a seat away, and none
tells of a silent winner. -/
theorem seat_or_isSpoken_ofText (seatsOpen : Bool) (raw : Text) :
    (seatsOpen = true ∧ ∃ number player line, ofText seatsOpen raw = .seat number player line) ∨
      (ofText seatsOpen raw).IsSpoken := by
  unfold ofText
  dsimp only
  split
  · exact Or.inr trivial
  · split
    · exact Or.inr trivial
    · split
      · split
        · next opened =>
          rw [ofSeat]
          split
          · exact Or.inl ⟨opened, _, _, _, rfl⟩
          · exact Or.inr trivial
        · exact Or.inr (isSpoken_ofOpenText _)
      · exact Or.inr (isSpoken_ofOpenText _)

end BodyLine

/-! ## Drafts -/

namespace Draft

open Reading

variable {context : HandContext} {draft : Draft}

/-- What every draft keeps, also while silent winners are given their actions. -/
structure Sound (context : HandContext) (draft : Draft) : Prop where
  actionsFit : ∀ (index : Nat) (action : Action), draft.actions[index]? = some action →
    action.Fits context.handId draft.seats index
  winnersDiffer : draft.winners.Nodup
  winnersNamed : ∀ name ∈ draft.winners, name ≠ []
  winnersSeated : ∀ name ∈ draft.winners, name ∈ draft.seats.toList
  winnersFit : draft.winners.length ≤ winnerRoom

/-- What a draft keeps while lines are read: seats are open only until the first
action or winner, and no action is made up. -/
structure InBody (context : HandContext) (draft : Draft) : Prop extends Sound context draft where
  untouched : draft.seatsOpen = true → draft.actions = [] ∧ draft.winners = []
  spoken : ∀ action ∈ draft.actions, action.kind ≠ .silent

theorem inBody_seats (context : HandContext) (seats : NameRow) : InBody context { seats } where
  actionsFit := by simp
  winnersDiffer := List.nodup_nil
  winnersNamed := by simp
  winnersSeated := by simp
  winnersFit := by simp [winnerRoom]
  untouched := fun _ => ⟨rfl, rfl⟩
  spoken := by simp

/-- Nothing but seats, actions and winners is looked at. -/
theorem InBody.congr {after : Draft} (body : InBody context draft)
    (seats : after.seats = draft.seats) (actions : after.actions = draft.actions)
    (winners : after.winners = draft.winners)
    (opened : after.seatsOpen = true → draft.seatsOpen = true) : InBody context after where
  actionsFit := by
    rw [seats, actions]
    exact body.actionsFit
  winnersDiffer := winners ▸ body.winnersDiffer
  winnersNamed := winners ▸ body.winnersNamed
  winnersSeated := by
    rw [seats, winners]
    exact body.winnersSeated
  winnersFit := winners ▸ body.winnersFit
  untouched := by
    rw [actions, winners]
    intro open_
    exact body.untouched (opened open_)
  spoken := actions ▸ body.spoken

theorem mem_seats_of_isSeated {name : Text} (seated : draft.isSeated name = true) :
    name ∈ draft.seats.toList :=
  List.contains_iff_mem.1 seated

/-- An action of a seated player goes behind the others and changes no seat. -/
theorem yields_addAction {kind : ActionKind} {player : Text} {amount : Float}
    (sound : Sound context draft) (seated : player ∈ draft.seats.toList)
    (isNumber : amount.isNaN = false) (nothingPaid : kind.hasAmount = false → amount = 0) :
    Yields (draft.addAction context kind player amount) fun after =>
      Sound context after ∧ ∃ action : Action, action.kind = kind ∧ action.player = player ∧
        after = { draft with
          street := draft.currentStreet, actions := draft.actions ++ [action] } := by
  rw [addAction]
  refine yields_bind fun _ => Yields.bind (yields_ofModel fun action created => created) ?_
  intro action created
  obtain ⟨rfl, named, dealt, notNegative⟩ := Action.create_eq_ok created
  refine yields_pure ⟨{ sound with actionsFit := fun index other found => ?_ }, _, rfl, rfl, rfl⟩
  rcases Nat.lt_or_ge index draft.actions.length with earlier | later
  · rw [List.getElem?_append_left earlier] at found
    exact sound.actionsFit index other found
  · rw [List.getElem?_append_right later, List.getElem?_singleton] at found
    split at found
    · next last =>
      cases found
      have here : draft.actions.length = index := by omega
      exact
        { index_eq := here
          handId_eq := rfl
          dealt, named, seated, isNumber, notNegative, nothingPaid }
    · cases found

/-- Somebody who sits down changes nothing for those who have acted or won, since
there are none. -/
theorem yields_takeSeat {number player line : Text} (body : InBody context draft)
    (opened : draft.seatsOpen = true) :
    Yields (draft.takeSeat context number player line) (InBody context) := by
  obtain ⟨noActions, noWinners⟩ := body.untouched opened
  rw [takeSeat]
  split
  · next index _ =>
    split
    · exact yields_bind fun _ => yields_pure body
    · refine yields_bind fun _ => yields_pure ?_
      exact
        { actionsFit := by simp [noActions]
          winnersDiffer := body.winnersDiffer
          winnersNamed := body.winnersNamed
          winnersSeated := by simp [noWinners]
          winnersFit := body.winnersFit
          untouched := body.untouched
          spoken := body.spoken }
  · exact yields_bind fun _ => yields_pure body

theorem yields_takeBoard {part : BoardPart} {group? : Option Text} (body : InBody context draft) :
    Yields (draft.takeBoard context part group?) (InBody context) := by
  unfold takeBoard
  split
  · exact yields_bind fun _ => yields_pure (body.congr rfl rfl rfl id)
  · exact yields_pure (body.congr rfl rfl rfl id)

theorem yields_takeDealt {player : Text} {group? : Option Text} (body : InBody context draft) :
    Yields (draft.takeDealt context player group?) (InBody context) := by
  rw [takeDealt]
  refine yields_bind fun _ => ?_
  split
  · exact yields_bind fun _ => yields_pure (body.congr rfl rfl rfl id)
  · exact yields_pure (body.congr rfl rfl rfl id)

theorem addWinner_inBody {name : Text} (body : InBody context draft)
    (closed : draft.seatsOpen = false) (named : name ≠ []) (seated : name ∈ draft.seats.toList) :
    InBody context (draft.addWinner name) := by
  rw [addWinner]
  split
  · exact body
  · next room =>
    obtain ⟨unknown, space⟩ : name ∉ draft.winners ∧ draft.winners.length < winnerRoom := by
      simpa [not_or] using room
    exact
      { actionsFit := body.actionsFit
        winnersDiffer := by
          refine List.nodup_append.2 ⟨body.winnersDiffer, List.nodup_singleton name, ?_⟩
          rintro other hother _ hname rfl
          rw [List.mem_singleton.1 hname] at hother
          exact unknown hother
        winnersNamed := by
          intro other hother
          rcases List.mem_append.1 hother with hother | hother
          · exact body.winnersNamed other hother
          · exact List.mem_singleton.1 hother ▸ named
        winnersSeated := by
          intro other hother
          rcases List.mem_append.1 hother with hother | hother
          · exact body.winnersSeated other hother
          · exact List.mem_singleton.1 hother ▸ seated
        winnersFit := by
          rw [List.length_append, List.length_singleton]
          omega
        untouched := by simp [closed]
        spoken := body.spoken }

theorem yields_takeWinner {player line : Text} (body : InBody context draft)
    (closed : draft.seatsOpen = false) :
    Yields (draft.takeWinner context player line) (InBody context) := by
  rw [takeWinner]
  split
  · next seated =>
    refine (yields_enrol context.file player).bind fun _ named => ?_
    exact yields_pure (addWinner_inBody body closed named (mem_seats_of_isSeated seated))
  · exact yields_bind fun _ => yields_pure body

theorem yields_takeAction {kind : ActionKind} {player tail line : Text}
    (body : InBody context draft) (closed : draft.seatsOpen = false) (spoken : kind ≠ .silent) :
    Yields (draft.takeAction context kind player tail line) (InBody context) := by
  rw [takeAction]
  split
  · next seated =>
    have acted : ∀ amount : Float, amount.isNaN = false →
        (kind.hasAmount = false → amount = 0) →
        Yields (draft.addAction context kind player amount) (InBody context) := by
      intro amount isNumber nothingPaid
      refine (yields_addAction body.toSound (mem_seats_of_isSeated seated) isNumber
        nothingPaid).mono ?_
      rintro _ ⟨sound, action, hkind, -, rfl⟩
      refine { sound with untouched := by simp [closed], spoken := fun other hother => ?_ }
      rcases List.mem_append.1 hother with hother | hother
      · exact body.spoken other hother
      · rw [List.mem_singleton.1 hother, hkind]
        exact spoken
    dsimp only
    split
    · next has =>
      exact (yields_ofLogged (Amount.isNaN_last tail)).bind fun amount isNumber =>
        acted amount isNumber (by simp [has])
    · have nothing : Yields (pure 0) fun amount : Float => amount = 0 := yields_pure rfl
      exact nothing.bind fun amount zero => acted amount (zero ▸ Amount.isNaN_zero) fun _ => zero
  · exact yields_bind fun _ => yields_pure body

/-- The step: no line breaks what a draft keeps. -/
theorem yields_consume (raw : Text) (body : InBody context draft) :
    Yields (draft.consume context raw) (InBody context) := by
  rw [consume]
  split
  · exact yields_pure body
  · have shape := BodyLine.seat_or_isSpoken_ofText draft.seatsOpen raw
    generalize BodyLine.ofText draft.seatsOpen raw = line at shape
    dsimp only
    -- the seats are closed first, whatever the line goes on to do
    have kept : InBody context
        { draft with seatsOpen := draft.seatsOpen && line.keepsSeatsOpen } :=
      body.congr rfl rfl rfl fun both => (Bool.and_eq_true_iff.1 both).1
    cases line with
    | blank | brokenSeat | marker | blind | noise => exact yields_pure kept
    | summary | preflop => exact yields_pure (kept.congr rfl rfl rfl id)
    | seat number player line =>
      rcases shape with ⟨opened, -⟩ | impossible
      · exact yields_takeSeat kept (by simp [opened, BodyLine.keepsSeatsOpen])
      · exact impossible.elim
    | board part group? => exact yields_takeBoard kept
    | ante line =>
      exact yields_bind fun _ => yields_pure (kept.congr rfl rfl rfl id)
    | dealt player group? => exact yields_takeDealt kept
    | winner player line => exact yields_takeWinner kept (by simp [BodyLine.keepsSeatsOpen])
    | action kind player tail line =>
      rcases shape with ⟨-, _, _, _, same⟩ | spoken
      · cases same
      · exact yields_takeAction kept (by simp [BodyLine.keepsSeatsOpen]) spoken

/-- Players who sit at the table are given one silent action each, in order. -/
theorem yields_addSilent {names : List Text} (sound : Sound context draft)
    (seated : ∀ name ∈ names, name ∈ draft.seats.toList) :
    Yields (names.foldlM (fun draft name => draft.addAction context .silent name 0) draft)
      fun after => Sound context after ∧ after.seats = draft.seats ∧
        after.winners = draft.winners ∧ ∃ silent, after.actions = draft.actions ++ silent ∧
          (∀ action ∈ silent, action.kind = .silent) ∧ silent.map Action.player = names := by
  induction names generalizing draft with
  | nil => exact yields_pure ⟨sound, rfl, rfl, [], by simp⟩
  | cons name names ih =>
    rw [List.foldlM_cons]
    refine (yields_addAction sound (seated name List.mem_cons_self) Amount.isNaN_zero
      fun _ => rfl).bind ?_
    rintro between ⟨stillSound, action, hkind, hplayer, hbetween⟩
    have sameSeats : between.seats = draft.seats := by rw [hbetween]
    have sameWinners : between.winners = draft.winners := by rw [hbetween]
    have oneMore : between.actions = draft.actions ++ [action] := by rw [hbetween]
    refine (ih stillSound fun other hother => ?_).mono ?_
    · rw [sameSeats]
      exact seated other (List.mem_cons_of_mem _ hother)
    · rintro after ⟨soundAfter, seats, winners, silent, actions, kinds, players⟩
      refine ⟨soundAfter, seats.trans sameSeats, winners.trans sameWinners, action :: silent, ?_,
        ?_, ?_⟩
      · rw [actions, oneMore, List.append_assoc, List.singleton_append]
      · intro other hother
        rcases List.mem_cons.1 hother with rfl | hother
        · exact hkind
        · exact kinds other hother
      · rw [List.map_cons, hplayer, players]

/-- A draft whose body is read: what it keeps, and how its actions are divided. -/
structure Complete (context : HandContext) (draft : Draft) : Prop extends Sound context draft where
  silentLast : ∃ spoken silent, draft.actions = spoken ++ silent ∧
    (∀ action ∈ spoken, action.kind ≠ .silent) ∧ (∀ action ∈ silent, action.kind = .silent) ∧
    silent.map Action.player =
      draft.winners.filter fun name => !spoken.any fun action => action.player == name

theorem yields_addSilentWinners (body : InBody context draft) :
    Yields (draft.addSilentWinners context) (Complete context) := by
  have seated : ∀ name ∈ draft.silentWinners, name ∈ draft.seats.toList := fun name hname =>
    body.winnersSeated name (List.mem_filter.1 hname).1
  refine (yields_addSilent body.toSound seated).mono ?_
  rintro after ⟨sound, -, winners, silent, actions, kinds, players⟩
  refine { sound with silentLast := ⟨draft.actions, silent, actions, body.spoken, kinds, ?_⟩ }
  rw [players, winners]
  rfl

/-- Every winner acts, with a word or as a silent winner. -/
theorem Complete.winnersAct (complete : Complete context draft) {name : Text}
    (won : name ∈ draft.winners) : ∃ action ∈ draft.actions, action.player = name := by
  obtain ⟨spoken, silent, actions, -, -, players⟩ := complete.silentLast
  rw [actions]
  by_cases spoke : spoken.any (fun action => action.player == name) = true
  · obtain ⟨action, haction, same⟩ := List.any_eq_true.1 spoke
    exact ⟨action, List.mem_append_left _ haction, beq_iff_eq.1 same⟩
  · have made : name ∈ silent.map Action.player := by
      rw [players]
      exact List.mem_filter.2 ⟨won, by simpa using spoke⟩
    obtain ⟨action, haction, same⟩ := List.mem_map.1 made
    exact ⟨action, List.mem_append_right _ haction, same⟩

end Draft

/-! ## Histories -/

theorem Hand.create_eq_ok {hand created : Hand} (h : hand.create = .ok created) :
    created = hand ∧ hand.id ≠ [] ∧ hand.table ≠ [] ∧ ∃ name ∈ hand.seats.toList, name ≠ [] := by
  rw [Hand.create] at h
  split at h
  · cases h
  · next hid =>
    split at h
    · cases h
    · split at h
      · cases h
      · next htable =>
        split at h
        · cases h
        · split at h
          · cases h
          · next occupied =>
            cases h
            refine ⟨rfl, by simpa using hid, by simpa using htable, ?_⟩
            by_contra free
            push Not at free
            refine occupied (List.all_eq_true.2 fun name hname => ?_)
            exact List.isEmpty_iff.2 (free name hname)

theorem Hand.create_of_rules {hand : Hand} (named : hand.id ≠ []) (ofSite : hand.site ≠ [])
    (atTable : hand.table ≠ []) (ante : ¬ hand.ante < 0)
    (occupied : ∃ name ∈ hand.seats.toList, name ≠ []) : hand.create = .ok hand := by
  have someone : hand.seats.toList.all List.isEmpty = false := by
    obtain ⟨name, sits, hname⟩ := occupied
    exact List.all_eq_false.2 ⟨name, sits, by simpa using hname⟩
  simp [Hand.create, named, ofSite, atTable, ante, someone]

namespace History

open Reading

/-- The run: what a draft keeps, it keeps through a whole body. -/
theorem yields_readBody (room : Room) {context : HandContext} {draft : Draft}
    (body : draft.InBody context) (lines : List Text) :
    Yields (readBody room context lines draft) (Draft.InBody context) := by
  induction lines generalizing draft with
  | nil => exact yields_pure body
  | cons line lines ih =>
    rw [readBody]
    split
    · exact yields_pure body
    · exact yields_bind fun _ => (Draft.yields_consume line body).bind fun _ after => ih after

theorem sound_of_complete {room : Room} {context : HandContext} {header : Header}
    {table : TableLine} {draft : Draft} {hand : Hand} (complete : draft.Complete context)
    (same : context.handId = header.handId)
    (created : (assemble room header table draft).create = .ok hand) : hand.Sound := by
  obtain ⟨rfl, named, atTable, occupied⟩ := Hand.create_eq_ok created
  have fits := complete.actionsFit
  rw [same] at fits
  have winners : (assemble room header table draft).winnerNames = draft.winners :=
    NameRow.taken_ofNames complete.winnersFit complete.winnersNamed
  exact
    { named, atTable, occupied
      actionsFit := fits
      winnersLead := ⟨draft.winners.length, NameRow.ofNames_ne_nil_iff complete.winnersNamed⟩
      winnersDiffer := winners ▸ complete.winnersDiffer
      winnersSeated := winners ▸ complete.winnersSeated
      winnersAct := by
        rw [winners]
        intro name won
        exact complete.winnersAct won
      silentLast := by
        rw [winners]
        exact complete.silentLast }

theorem yields_readHand (room : Room) :
    Yields (readHand room) fun record => record.hand.Sound := by
  unfold readHand readRest
  refine yields_bind fun header => yields_bind fun table => yields_bind fun session => ?_
  refine (yields_readBody room (Draft.inBody_seats _ .free) _).bind ?_
  intro draft body
  refine (Draft.yields_addSilentWinners body).bind fun draft complete => ?_
  refine Yields.bind (yields_ofModel fun hand created => created) fun hand created => ?_
  exact yields_pure (sound_of_complete complete rfl created)

/-- What every hand has that is read, every hand of a game has to which they are added;
and its stakes are what they were. -/
theorem yields_readOthers {room : Room} {P : Hand → Prop}
    (others : Yields (readHand room) fun record => P record.hand) (bound : Nat)
    {game : StakedGame} (all : ∀ hand ∈ game.game.hands, P hand) :
    Yields (readOthers room bound game) fun final =>
      final.stakes = game.stakes ∧ ∀ hand ∈ final.game.hands, P hand := by
  induction bound generalizing game with
  | zero => exact yields_pure ⟨rfl, all⟩
  | succ bound ih =>
    rw [readOthers]
    refine yields_bind fun found => ?_
    split
    · refine others.bind fun record here => ih fun hand hhand => ?_
      rcases List.mem_append.1 hhand with hhand | hhand
      · exact all hand hhand
      · exact List.mem_singleton.1 hhand ▸ here
    · exact yields_pure ⟨rfl, all⟩

/-- A game has the stakes of its first hand, and what every hand has that is read, all
of its hands have. -/
theorem yields_readGame_of {room : Room} {stem : Text} {P : Hand → Prop} {Q : Stakes → Prop}
    (first : Yields (readHandAndData room stem) fun read =>
      P read.1 ∧ ∀ stakes, read.2.stakes = .ok stakes → Q stakes)
    (others : Yields (readHand room) fun record => P record.hand) :
    Yields (readGame room stem) fun game? =>
      ∀ game, game? = some game → Q game.stakes ∧ ∀ hand ∈ game.game.hands, P hand := by
  rw [readGame]
  refine yields_bind fun session => yields_bind fun found => ?_
  split
  · refine first.bind ?_
    rintro ⟨hand, data⟩ ⟨here, staked⟩
    refine Yields.bind (yields_ofModel fun game created => created) fun game created => ?_
    refine yields_bind fun _ => ?_
    have only : ∀ other ∈ (game.addHand hand).game.hands, P other := by
      intro other hother
      have hands : (game.addHand hand).game.hands = [hand] := by
        simp [StakedGame.addHand, Game.addHand, GameData.hands_emptyGame created]
      rw [hands, List.mem_singleton] at hother
      exact hother ▸ here
    have stakes : Q game.stakes := staked _ (GameData.stakes_emptyGame created)
    refine Yields.bind (yields_readOthers others _ only) fun final ⟨same, all⟩ => yields_pure ?_
    rintro _ ⟨⟩
    exact ⟨same.symm ▸ stakes, all⟩
  · refine yields_bind fun _ => yields_pure ?_
    rintro _ ⟨⟩

theorem yields_readGame (room : Room) (stem : Text) :
    Yields (readGame room stem) fun game? =>
      ∀ game, game? = some game → ∀ hand ∈ game.game.hands, hand.Sound := by
  have first : Yields (readHandAndData room stem) fun read =>
      read.1.Sound ∧ ∀ stakes, read.2.stakes = .ok stakes → True :=
    (yields_readHand room).bind fun record sound => yields_pure ⟨sound, fun _ _ => trivial⟩
  exact (yields_readGame_of first (yields_readHand room)).mono fun _ all game same =>
    (all game same).2

/-- Every hand that is read, alone or as one of a file, from whatever place in
whatever text and with whatever roster, keeps the rules. -/
theorem hands_sound (room : Room) (session : Session) :
    (∀ record after, (readHand room).runFrom session = (.ok record, after) →
      record.hand.Sound) ∧
    (∀ stem game after, (readGame room stem).runFrom session = (.ok (some game), after) →
      ∀ hand ∈ game.game.hands, hand.Sound) :=
  ⟨yields_readHand room session,
    fun stem game after run => yields_readGame room stem session (some game) after run game rfl⟩

/-- A player who wins without a word is read, and keeps the rules. -/
theorem hands_sound_silent_winner :
    ∃ record after, (readHand .winamax).runFrom
      { cursor := .ofText [] ("Winamax Poker - HandId: #1 - 2014/11/12 23:49:45\n" ++
          "Table: 'Nice' 5-max\nSeat 1: ann (5)\nann collected 3 from pot\n")
        roster := { site := Room.winamax.siteName } } = (.ok record, after) ∧
      record.hand.actions.map Action.kind = [.silent] ∧ record.hand.Sound := by
  generalize hsession : Session.mk _ _ _ = session
  have kinds : ((readHand .winamax).runFrom session).1.map
      (fun record => record.hand.actions.map Action.kind) = .ok [.silent] := by
    rw [← hsession]
    decide +kernel
  rcases run : (readHand .winamax).runFrom session with ⟨e | record, after⟩
  · rw [run] at kinds
    cases kinds
  · rw [run] at kinds
    exact ⟨record, after, rfl, Except.ok.inj kinds, (hands_sound .winamax session).1 _ _ run⟩

end History

end HandHistory
