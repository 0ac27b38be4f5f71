import HandHistory.Proofs.Pieces
import HandHistory.Proofs.Said
import HandHistory.Proofs.WrittenHeaders

/-!
# Groups of cards

The cards of a bracket group stand between delimiters, and each of them may have blanks
around it. Two things decide what is read from a group. Its tokens are what is left of its
pieces without their blanks, and the pieces themselves are told by `Text.Divided`. Of the
tokens only the first five are looked at: they are all cards, and fill the row from the left,
or the first one that is no card is named by the error (`ofGroup_eq_ok_iff`,
`ofGroup_eq_error_iff`).

With the usual delimiters, a space or a comma and a space, nothing is lost on the way from
cards to a group and back. Blanks may even be such spaces: they make more pieces, but these
are blank, and blank pieces are no tokens (`groupTokens_join`).
-/

namespace HandHistory

open Text

/-! ## Tokens of cards -/

namespace Card

/-- The tokens of all cards. -/
def tokens : List Text := deck.map token

theorem length_tokens : tokens.length = 52 ∧ tokens.Nodup := by decide

variable {text : Text} {error : TokenError}

theorem mem_tokens_iff : text ∈ tokens ↔ ∃ card : Card, text = card.token := by
  constructor
  · intro inside
    obtain ⟨card, -, same⟩ := List.mem_map.1 inside
    exact ⟨card, same.symm⟩
  · rintro ⟨⟨rank, suit⟩, rfl⟩
    refine List.mem_map.2 ⟨⟨rank, suit⟩, ?_, rfl⟩
    cases rank <;> cases suit <;> decide

theorem not_mem_tokens_iff : text ∉ tokens ↔ ∀ card : Card, text ≠ card.token := by
  rw [mem_tokens_iff, not_exists]

theorem eq_of_ofToken_eq_error (refused : ofToken text = .error error) : error = ⟨.card, text⟩ := by
  unfold ofToken at refused
  split at refused
  · split at refused <;> cases refused
    rfl
  · cases refused
    rfl

theorem ofToken_eq_error_iff :
    ofToken text = .error error ↔ text ∉ tokens ∧ error = ⟨.card, text⟩ := by
  rw [not_mem_tokens_iff]
  cases read : ofToken text with
  | ok card =>
    refine iff_of_false (fun impossible => by cases impossible) ?_
    rintro ⟨stranger, -⟩
    exact stranger card (ofToken_eq_ok_iff.1 read)
  | error other =>
    obtain rfl := eq_of_ofToken_eq_error read
    have stranger : ∀ card : Card, text ≠ card.token := by
      rintro card rfl
      rw [ofToken_eq_ok_iff.2 rfl] at read
      cases read
    rw [Except.error.injEq, eq_comm (a := error)]
    exact (and_iff_right stranger).symm

end Card

/-- A slot is read from its token and from nothing else. -/
theorem CardSlot.ofToken_eq_ok_iff {text : Text} {slot : CardSlot} :
    ofToken text = .ok slot ↔ text = slot.token := by
  rw [ofToken]
  split
  · next free =>
    subst free
    cases slot with
    | none => exact iff_of_true rfl rfl
    | some card =>
      refine iff_of_false (fun impossible => by cases impossible) ?_
      intro same
      cases congrArg List.length same
  · next taken =>
    cases slot with
    | none =>
      refine iff_of_false ?_ taken
      cases Card.ofToken text <;> intro impossible <;> cases impossible
    | some card =>
      rw [show CardSlot.token (some card) = card.token from rfl, ← Card.ofToken_eq_ok_iff]
      cases Card.ofToken text with
      | error error => exact iff_of_false (fun h => by cases h) (fun h => by cases h)
      | ok read =>
        constructor <;> intro same <;> cases same <;> rfl

/-! ## The first token that is no card -/

namespace CardRow

variable {tokens : List Text} {token delimiter group : Text} {cards : List Card}
  {error : TokenError}

/-- The first of several tokens that is the token of no card. -/
def FirstStranger (tokens : List Text) (token : Text) : Prop :=
  ∃ front rest, tokens = front ++ token :: rest ∧ (∀ known ∈ front, known ∈ Card.tokens) ∧
    token ∉ Card.tokens

theorem firstStranger_cons {next : Text} : FirstStranger (next :: tokens) token ↔
    (next ∉ Card.tokens ∧ token = next) ∨ (next ∈ Card.tokens ∧ FirstStranger tokens token) := by
  constructor
  · rintro ⟨front, rest, same, known, stranger⟩
    cases front with
    | nil =>
      obtain ⟨rfl, -⟩ := List.cons.inj same
      exact Or.inl ⟨stranger, rfl⟩
    | cons first front =>
      obtain ⟨rfl, others⟩ := List.cons.inj same
      exact Or.inr ⟨known next List.mem_cons_self, front, rest, others,
        fun other inside => known other (List.mem_cons_of_mem next inside), stranger⟩
  · rintro (⟨stranger, rfl⟩ | ⟨inside, front, rest, rfl, known, stranger⟩)
    · exact ⟨[], tokens, rfl, by simp, stranger⟩
    · exact ⟨next :: front, rest, rfl, by simpa [inside] using known, stranger⟩

/-- Tokens are read one by one, up to the first that is no card. -/
theorem mapM_ofToken_eq_error_iff : tokens.mapM Card.ofToken = .error error ↔
    ∃ token, FirstStranger tokens token ∧ error = ⟨.card, token⟩ := by
  induction tokens with
  | nil => simp [FirstStranger, pure, Except.pure]
  | cons next tokens ih =>
    simp only [List.mapM_cons, firstStranger_cons]
    cases read : Card.ofToken next with
    | error other =>
      obtain ⟨stranger, rfl⟩ := Card.ofToken_eq_error_iff.1 read
      simp [stranger, bind, Except.bind, eq_comm]
    | ok card =>
      have known : next ∈ Card.tokens := Card.mem_tokens_iff.2 ⟨card, Card.ofToken_eq_ok_iff.1 read⟩
      simp only [known, not_true_eq_false, false_and, false_or, true_and, ← ih]
      cases tokens.mapM Card.ofToken with
      | error other => rfl
      | ok cards => exact iff_of_false (fun h => by cases h) (fun h => by cases h)

theorem mapM_ofToken_eq_ok_iff : tokens.mapM Card.ofToken = .ok cards ↔
    tokens = cards.map Card.token := by
  constructor
  · intro read
    induction tokens generalizing cards with
    | nil =>
      cases read
      rfl
    | cons next tokens ih =>
      rw [List.mapM_cons] at read
      cases first : Card.ofToken next with
      | error other =>
        rw [first] at read
        cases read
      | ok card =>
        rw [first] at read
        cases others : tokens.mapM Card.ofToken with
        | error other =>
          rw [others] at read
          cases read
        | ok more =>
          rw [others] at read
          cases read
          rw [List.map_cons, ← ih others, ← Card.ofToken_eq_ok_iff.1 first]
  · rintro rfl
    exact Written.mapM_ofToken cards

/-! ## What a group is read as -/

/-- Cards fill a row from the left, and what they do not fill is free. -/
theorem toList_ofCards (cards : List Card) : (ofCards cards).toList =
    (cards.take 5).map some ++ List.replicate (5 - cards.length) none := by
  refine List.ext_getElem (by simp; omega) ?_
  intro i inside _
  have five : i < 5 := by simpa using inside
  simp only [ofCards, ofSlots, Vector.getElem_toList, Vector.getElem_ofFn, List.getElem?_map,
    List.getElem_append, List.length_map, List.length_take]
  split
  · next filled =>
    have there : i < cards.length := by omega
    simp [there]
  · next left =>
    have nothing : cards.length ≤ i := by omega
    simp [nothing]

theorem ofGroup_eq_ok_iff {row : CardRow} : ofGroup delimiter group = .ok row ↔
    ∃ cards, (groupTokens delimiter group).take 5 = cards.map Card.token ∧ row = ofCards cards := by
  simp only [ofGroup, ← mapM_ofToken_eq_ok_iff]
  cases ((groupTokens delimiter group).take 5).mapM Card.ofToken with
  | error error => simp [Functor.map, Except.map]
  | ok cards => simp [Functor.map, Except.map, eq_comm]

theorem ofGroup_eq_error_iff : ofGroup delimiter group = .error error ↔
    ∃ token, FirstStranger ((groupTokens delimiter group).take 5) token ∧
      error = ⟨.card, token⟩ := by
  rw [← mapM_ofToken_eq_error_iff, ofGroup]
  cases ((groupTokens delimiter group).take 5).mapM Card.ofToken with
  | error other => simp [Functor.map, Except.map]
  | ok cards => simp [Functor.map, Except.map]

theorem ofGroup_fails_iff : (∃ error, ofGroup delimiter group = .error error) ↔
    ∃ token ∈ (groupTokens delimiter group).take 5, token ∉ Card.tokens := by
  simp only [ofGroup_isError_iff, IsFlawed, Card.not_mem_tokens_iff]

/-! ## Tokens of pieces -/

/-- What is left of pieces without their blanks, where anything is left. -/
def solid (pieces : List Text) : List Text :=
  (pieces.map trimBlank).filter fun token => !token.isEmpty

theorem groupTokens_eq_solid (delimiter group : Text) :
    groupTokens delimiter group = solid (split delimiter group) := rfl

theorem solid_append (pieces others : List Text) :
    solid (pieces ++ others) = solid pieces ++ solid others := by
  rw [solid, List.map_append, List.filter_append, solid, solid]

theorem solid_cons (piece : Text) (pieces : List Text) :
    solid (piece :: pieces) = solid [piece] ++ solid pieces := solid_append [piece] pieces

theorem solid_eq_nil {pieces : List Text} (blank : ∀ piece ∈ pieces, ∀ c ∈ piece, isBlank c = true) :
    solid pieces = [] := by
  refine List.filter_eq_nil_iff.2 ?_
  intro token inside
  obtain ⟨piece, cut, rfl⟩ := List.mem_map.1 inside
  simp [trimBlank, trimBy_eq_nil (blank piece cut)]

theorem solid_consHead {c : Char} (blank : isBlank c = true) (pieces : List Text) :
    solid (consHead c pieces) = solid pieces := by
  cases pieces with
  | nil => exact solid_eq_nil (by simpa [consHead] using blank)
  | cons piece pieces =>
    rw [consHead, solid, solid, List.map_cons, List.map_cons, trimBlank, trimBy_cons blank]
    rfl

/-! ## Cards between delimiters -/

/-- A space, or a comma and a space. -/
def usualDelimiters : List Text := [" ", ", "]

/-- A card with blanks around its token. -/
structure PaddedCard where
  before : Text
  card : Card
  after : Text
  blank_before : ∀ c ∈ before, isBlank c = true
  blank_after : ∀ c ∈ after, isBlank c = true

def PaddedCard.text (padded : PaddedCard) : Text :=
  padded.before ++ (padded.card.token ++ padded.after)

/-- A usual delimiter does not overlap with itself and begins in no card. It begins with a blank
only if there is nothing else to it. -/
theorem exists_usual (usual : delimiter ∈ usualDelimiters) : ∃ c more, delimiter = c :: more ∧
    c ∉ more ∧ c ∉ Written.cardLetters ∧ (more = [] ∨ isBlank c = false) := by
  rcases List.mem_cons.1 usual with rfl | comma
  · exact ⟨' ', [], by decide⟩
  · obtain rfl := List.mem_singleton.1 comma
    exact ⟨',', [' '], by decide⟩

/-- The tokens of two groups with a delimiter between them. -/
theorem groupTokens_append (usual : delimiter ∈ usualDelimiters) (group more : Text) :
    groupTokens delimiter (group ++ delimiter ++ more) =
      groupTokens delimiter group ++ groupTokens delimiter more := by
  obtain ⟨c, others, rfl, lone, -⟩ := exists_usual usual
  rw [groupTokens_eq_solid, split_append lone, solid_append]
  rfl

/-- Blanks in front of a group do not count, also where they are delimiters. -/
theorem groupTokens_cons (usual : delimiter ∈ usualDelimiters) {c : Char}
    (blank : isBlank c = true) (group : Text) :
    groupTokens delimiter (c :: group) = groupTokens delimiter group := by
  obtain ⟨d, more, rfl, -, -, single⟩ := exists_usual usual
  rw [groupTokens_eq_solid]
  by_cases same : c = d
  · subst same
    obtain rfl : more = [] := single.resolve_right (by simp [blank])
    have alone : split [c] (c :: group) = [] :: split [c] group := by
      simp [split_singleton, fields, fieldsBy]
    rw [alone, solid_cons, solid_eq_nil (by simp)]
    rfl
  · rw [split_cons same, solid_consHead blank]
    rfl

theorem groupTokens_blanks (usual : delimiter ∈ usualDelimiters) {blanks : Text}
    (blank : ∀ c ∈ blanks, isBlank c = true) (group : Text) :
    groupTokens delimiter (blanks ++ group) = groupTokens delimiter group := by
  induction blanks with
  | nil => rfl
  | cons c blanks ih =>
    rw [List.cons_append, groupTokens_cons usual (blank c List.mem_cons_self),
      ih fun d inside => blank d (List.mem_cons_of_mem c inside)]

theorem isBlank_eq_false_of_mem_token (card : Card) : ∀ c ∈ card.token, isBlank c = false := by
  have solid : Written.cardLetters.all (fun c => !isBlank c) = true := by decide
  intro c inside
  simpa using List.all_eq_true.1 solid c (Written.mem_cardLetters card c inside)

theorem groupTokens_padded (usual : delimiter ∈ usualDelimiters) (padded : PaddedCard) :
    groupTokens delimiter padded.text = [padded.card.token] := by
  obtain ⟨c, more, rfl, -, noLetter, -⟩ := exists_usual usual
  have named := List.cons_ne_nil c more
  have absent : c ∉ padded.card.token :=
    fun inside => noLetter (Written.mem_cardLetters padded.card c inside)
  obtain ⟨piece, pieces, hpieces⟩ := List.exists_cons_of_ne_nil (split_ne_nil named padded.after)
  -- blanks behind the card end its piece, and whatever other pieces they make are blank
  have blank : ∀ other ∈ piece :: pieces, ∀ d ∈ other, isBlank d = true := by
    intro other cut d inside
    have divided := divided_split named padded.after
    rw [hpieces] at divided
    exact padded.blank_after d (divided.mem_of_mem cut inside)
  have kept : trimBlank (padded.card.token ++ piece) = padded.card.token := by
    rw [trimBlank, trimBy_append (blank piece List.mem_cons_self)]
    exact Written.trimBlank_eq_self (isBlank_eq_false_of_mem_token padded.card)
  rw [PaddedCard.text, groupTokens_blanks usual padded.blank_before, groupTokens_eq_solid,
    split_append_of_not_mem absent hpieces, solid_cons,
    solid_eq_nil fun other later => blank other (List.mem_cons_of_mem piece later), solid,
    List.map_singleton, kept]
  rfl

theorem groupTokens_join (usual : delimiter ∈ usualDelimiters) (cards : List PaddedCard) :
    groupTokens delimiter (join delimiter (cards.map PaddedCard.text)) =
      cards.map fun padded => padded.card.token := by
  induction cards with
  | nil =>
    obtain ⟨c, more, rfl, -⟩ := exists_usual usual
    rfl
  | cons padded cards ih =>
    cases cards with
    | nil => exact groupTokens_padded usual padded
    | cons next cards =>
      rw [List.map_cons, List.map_cons, join_cons_cons, groupTokens_append usual,
        groupTokens_padded usual padded, ← List.map_cons, ih]
      rfl

theorem ofGroup_join (usual : delimiter ∈ usualDelimiters) (cards : List PaddedCard) :
    ofGroup delimiter (join delimiter (cards.map PaddedCard.text)) =
      .ok (ofCards ((cards.map PaddedCard.card).take 5)) := by
  refine ofGroup_eq_ok_iff.2 ⟨(cards.map PaddedCard.card).take 5, ?_, rfl⟩
  rw [groupTokens_join usual, List.map_take, List.map_map]
  rfl

/-- What follows a delimiter behind five tokens is not looked at. -/
theorem ofGroup_append (usual : delimiter ∈ usualDelimiters)
    (full : 5 ≤ (groupTokens delimiter group).length) (more : Text) :
    ofGroup delimiter (group ++ delimiter ++ more) = ofGroup delimiter group := by
  rw [ofGroup, groupTokens_append usual, List.take_append_of_le_length full, ofGroup]

/-- A slot is read from its token alone. Cards with the usual delimiter between them are read
back, whatever blanks are around them, as the first five of them. A group has one division into
pieces, and the first five tokens of these decide: it fails just if one of them is no card, the
error names the first such token, and the other tokens do not count. -/
theorem card_groups_read_back :
    (∀ text slot, CardSlot.ofToken text = .ok slot ↔ text = slot.token) ∧
    (Card.tokens.length = 52 ∧ Card.tokens.Nodup) ∧
    (∀ delimiter ∈ usualDelimiters,
      (∀ cards : List PaddedCard, ∃ row,
        ofGroup delimiter (join delimiter (cards.map PaddedCard.text)) = .ok row ∧
        row.toList = (cards.take 5).map (fun padded => some padded.card) ++
          List.replicate (5 - cards.length) none) ∧
      (∀ group more, 5 ≤ (groupTokens delimiter group).length →
        ofGroup delimiter (group ++ delimiter ++ more) = ofGroup delimiter group)) ∧
    (∀ delimiter group,
      let tokens := groupTokens delimiter group
      (delimiter ≠ [] → ∃ pieces, (∀ others, Divided delimiter group others ↔ pieces = others) ∧
        tokens = (pieces.map trimBlank).filter fun token => !token.isEmpty) ∧
      ((∃ error, ofGroup delimiter group = .error error) ↔
        ∃ token ∈ tokens.take 5, token ∉ Card.tokens) ∧
      (∀ error, ofGroup delimiter group = .error error ↔
        ∃ token, FirstStranger (tokens.take 5) token ∧ error = ⟨.card, token⟩) ∧
      (∀ other, (groupTokens delimiter other).take 5 = tokens.take 5 →
        ofGroup delimiter other = ofGroup delimiter group)) := by
  refine ⟨fun text slot => CardSlot.ofToken_eq_ok_iff, Card.length_tokens, ?_, ?_⟩
  · intro delimiter usual
    refine ⟨fun cards => ⟨_, ofGroup_join usual cards, ?_⟩, fun group more full =>
      ofGroup_append usual full more⟩
    rw [toList_ofCards, List.take_take, Nat.min_self, List.length_take, List.length_map,
      ← List.map_take, List.map_map]
    have left : 5 - min 5 cards.length = 5 - cards.length := by omega
    rw [left]
    rfl
  · intro delimiter group
    refine ⟨fun named => ⟨split delimiter group, fun _ => (split_eq_iff_divided named).symm, rfl⟩,
      ofGroup_fails_iff, fun error => ofGroup_eq_error_iff, ?_⟩
    intro other same
    rw [ofGroup, same, ofGroup]

/-- A sixth token that is no card, two cards with blanks around them, and a second token that
is the token of a slot but not of a card. -/
theorem card_groups_read_back_stranger :
    (" ".toList ∈ usualDelimiters ∧ 5 ≤ (groupTokens " " "Ah Kd  7s 8d 2c").length ∧
      ofGroup " " ("Ah Kd  7s 8d 2c" ++ " " ++ "Xx") = ofGroup " " "Ah Kd  7s 8d 2c") ∧
    (", ".toList ∈ usualDelimiters ∧ ∃ row, ofGroup ", " "Ah , \tKd" = .ok row ∧
      row.toList = [some ⟨.ace, .hearts⟩, some ⟨.king, .diamonds⟩, none, none, none]) ∧
    (" ".toList ≠ [] ∧ FirstStranger ((groupTokens " " "Ah none Xx").take 5) "none" ∧
      ofGroup " " "Ah none Xx" = .error ⟨.card, "none"⟩) := by
  have space : " ".toList ∈ usualDelimiters := by decide
  have comma : ", ".toList ∈ usualDelimiters := by decide
  have five : 5 ≤ (groupTokens " " "Ah Kd  7s 8d 2c").length := by decide
  have stranger : FirstStranger ((groupTokens " " "Ah none Xx").take 5) "none" :=
    ⟨["Ah"], ["Xx"], by decide, by decide, by decide⟩
  obtain ⟨-, -, usual, any⟩ := card_groups_read_back
  refine ⟨⟨space, five, (usual _ space).2 _ "Xx" five⟩, ⟨comma, ?_⟩, by decide, stranger, ?_⟩
  · have blanks : ∀ {text : Text}, text.all isBlank = true → ∀ c ∈ text, isBlank c = true :=
      List.all_eq_true.1
    exact (usual _ comma).1
      [⟨[], ⟨.ace, .hearts⟩, " ", blanks (by decide), blanks (by decide)⟩,
        ⟨"\t", ⟨.king, .diamonds⟩, [], blanks (by decide), blanks (by decide)⟩]
  · exact ((any " " "Ah none Xx").2.2.1 _).2 ⟨"none", stranger, rfl⟩

end CardRow

end HandHistory
