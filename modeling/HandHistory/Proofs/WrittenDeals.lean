import HandHistory.Proofs.Written
import HandHistory.Room

/-!
# Reading seats, deals and markers

The lines that no player leads: who sits where, which cards the hero is dealt,
and the marker of a street with the cards on the board. What tells the markers
apart are capital letters that no card is written with.

A deal begins with `Dealt to ` and goes on with a name, which is where a search for
` posts ` may end; `has_dealtText` says for which name it does.
-/

namespace HandHistory.Written

open Text

/-! ## Seats -/

section Seats

variable (place : Fin 10) (name : Name) (chips : Chips)

/-- The number of a place, counted from one. -/
def placeText : Text := Numeral.write (place.val + 1)

def seatText : Text :=
  "Seat ".toList ++ (placeText place ++ (": ".toList ++ (name.text ++
    (" (".toList ++ (chips.text ++ ")".toList)))))

theorem ofNumberText_placeText : Seat.ofNumberText (placeText place) = .place place := by
  revert place
  decide

theorem opensChips_text (rest : Text) : BodyLine.opensChips (chips.text ++ rest) = true := by
  obtain ⟨digit, others, same⟩ := List.exists_cons_of_ne_nil chips.whole_ne_nil
  have first := chips.whole_digits digit (same ▸ List.mem_cons_self)
  rw [Chips.text]
  cases chips.before with
  | none => simp [Sign.text, same, BodyLine.opensChips, first]
  | dollar | euro | pound => rfl

/-- No chips are opened in a name: what follows a ` (` in it begins with neither a digit nor a
currency sign. -/
def Unopened (name : Text) : Prop :=
  ∀ front rest, name = front ++ " (".toList ++ rest → BodyLine.opensChips rest = false

theorem unopened_of_not_mem {name : Text} (plain : ' ' ∉ name) : Unopened name := by
  rintro front rest rfl
  exact absurd (by simp) plain

theorem unopened_of_beforeChips? {name : Text} (none : BodyLine.beforeChips? name = none) :
    Unopened name := by
  rintro front rest rfl
  induction front with
  | nil =>
    have opened : stripStart? " (" (" (".toList ++ rest) = some rest := stripStart?_append _ rest
    rw [List.nil_append] at none
    change BodyLine.beforeChips? (' ' :: '(' :: rest) = Option.none at none
    change stripStart? " (" (' ' :: '(' :: rest) = some rest at opened
    rw [BodyLine.beforeChips?, opened] at none
    cases chips : BodyLine.opensChips rest with
    | false => rfl
    | true => simp [chips] at none
  | cons c front ih =>
    apply ih
    rw [List.cons_append, List.cons_append, BodyLine.beforeChips?] at none
    split at none
    · split at none
      · cases none
      · exact Option.map_eq_none_iff.1 none
    · exact Option.map_eq_none_iff.1 none

/-- Chips in brackets end the name in front of them. -/
theorem beforeChips?_append {name stack : Text} (unopened : Unopened name)
    (noSpace : name.getLast? ≠ some ' ') (opens : BodyLine.opensChips stack = true) :
    BodyLine.beforeChips? (name ++ (" (".toList ++ stack)) = some name := by
  induction name with
  | nil =>
    have opened : stripStart? " (" (' ' :: '(' :: stack) = some stack := rfl
    show BodyLine.beforeChips? (' ' :: '(' :: stack) = some []
    rw [BodyLine.beforeChips?, opened]
    exact if_pos opens
  | cons c name ih =>
    have unopenedRest : Unopened name := fun front rest same =>
      unopened (c :: front) rest (congrArg (c :: ·) same)
    have noSpaceRest : name.getLast? ≠ some ' ' := by
      cases name with
      | nil => simp
      | cons d name => simpa using noSpace
    have further := ih unopenedRest noSpaceRest
    rw [List.cons_append, BodyLine.beforeChips?, further]
    cases here : stripStart? " (" (c :: (name ++ (" (".toList ++ stack))) with
    | none => rfl
    | some behind =>
      -- the bracket stands in the name, and what follows it there is not the stack
      have closed : BodyLine.opensChips behind = false := by
        obtain ⟨rfl, rest⟩ : c = ' ' ∧ name ++ (" (".toList ++ stack) = '(' :: behind :=
          List.cons.inj (stripStart?_eq_some_iff.1 here)
        cases name with
        | nil => exact absurd rfl noSpace
        | cons d name =>
          obtain ⟨rfl, rfl⟩ : d = '(' ∧ name ++ (" (".toList ++ stack) = behind :=
            List.cons.inj rest
          cases name with
          | nil => rfl
          | cons e name => exact unopened [] (e :: name) rfl
      simp [closed]

/-- While seats are open, a seat line is read with its number, its player and itself. -/
theorem ofText_seat : BodyLine.ofText true (seatText place name chips) =
    .seat (placeText place) name.text (seatText place name chips) := by
  have starts : Starts (seatText place name chips) := ⟨'S', _, rfl, by decide⟩
  have ends : Ends (seatText place name chips) :=
    ⟨"Seat ".toList ++ (placeText place ++ (": ".toList ++ (name.text ++
      (" (".toList ++ chips.text)))), ')', by simp [seatText], by decide⟩
  have noSummary : hasStart "*** SUMMARY ***" (seatText place name chips) = false := rfl
  have seat : stripStart? "Seat " (seatText place name chips) =
      some (placeText place ++ (": ".toList ++ (name.text ++
        (" (".toList ++ (chips.text ++ ")".toList))))) := rfl
  have noColon : ∀ place, ':' ∉ placeText place := by decide
  have cut := cut?_of_not_mem (noColon place) " "
    (name.text ++ (" (".toList ++ (chips.text ++ ")".toList)))
  rw [BodyLine.ofText, trimLine_eq_self starts ends]
  simp only [List.isEmpty_iff, starts.ne_nil, if_false, noSummary, seat, if_true,
    Bool.false_eq_true]
  have found : cut? ": " (placeText place ++ (": ".toList ++ (name.text ++
      (" (".toList ++ (chips.text ++ ")".toList))))) = some (placeText place, name.text ++
        (" (".toList ++ (chips.text ++ ")".toList))) := cut
  rw [BodyLine.ofSeat, found]
  dsimp only
  have named := beforeChips?_append (unopened_of_not_mem name.space_not_mem)
    (fun last => name.space_not_mem (List.mem_of_getLast? last))
    (opensChips_text chips ")".toList)
  rw [BodyLine.seatedName, named, Option.getD_some, name.trimLine_text]

theorem isHandStart_seat (room : Room) : room.isHandStart (seatText place name chips) = false := by
  cases room <;> rfl

end Seats

/-! ## Markers -/

/-- The marker of the first street, in both of its spellings. -/
def preflopText (holeCards : Bool) : Text :=
  if holeCards then "*** HOLE CARDS ***" else "*** PRE-FLOP ***"

theorem ofText_preflop (seatsOpen holeCards : Bool) :
    BodyLine.ofText seatsOpen (preflopText holeCards) = .preflop := by
  revert seatsOpen holeCards
  decide

theorem isHandStart_preflop (room : Room) (holeCards : Bool) :
    room.isHandStart (preflopText holeCards) = false := by
  cases room <;> cases holeCards <;> rfl

/-- The cards that a marker of a street shows: those that are on the board already,
and those that are dealt. -/
inductive Board where
  | flop (a b c : Card)
  | turn (a b c d : Card)
  | river (a b c d e : Card)

namespace Board

def part : Board → BoardPart
  | flop .. => .flop
  | turn .. => .turn
  | river .. => .river

/-- The cards that are dealt. -/
def dealt : Board → List Card
  | flop a b c => [a, b, c]
  | turn _ _ _ d => [d]
  | river _ _ _ _ e => [e]

/-- The groups of cards that are on the board already. -/
def shown : Board → Text
  | flop .. => []
  | turn a b c _ => '[' :: (cardsText [a, b, c] ++ "]".toList)
  | river a b c d _ => '[' :: (cardsText [a, b, c, d] ++ "]".toList)

/-- The name of a street between its stars. -/
def stars : BoardPart → Text
  | .flop => "*** FLOP *** "
  | .turn => "*** TURN *** "
  | .river => "*** RIVER *** "

variable (board : Board)

/-- The marker behind the name of its street. -/
def groups : Text := board.shown ++ '[' :: (cardsText board.dealt ++ "]".toList)

def text : Text := stars board.part ++ board.groups

theorem dealt_few : board.dealt.length ≤ 5 := by
  cases board <;> simp [dealt]

theorem not_mem_shown {c : Char} (noSpace : c ≠ ' ') (noLetter : c ∉ cardLetters)
    (noOpening : c ≠ '[') (noClosing : c ≠ ']') : c ∉ board.shown := by
  have bracketed : ∀ cards, c ∉ '[' :: (cardsText cards ++ "]".toList) := by
    intro cards
    have inside := not_mem_cardsText noSpace noLetter cards
    simp [inside, noOpening, noClosing]
  cases board with
  | flop => simp [shown]
  | turn | river => exact bracketed _

theorem not_mem_groups {c : Char} (noSpace : c ≠ ' ') (noLetter : c ∉ cardLetters)
    (noOpening : c ≠ '[') (noClosing : c ≠ ']') : c ∉ board.groups := by
  have front := board.not_mem_shown noSpace noLetter noOpening noClosing
  have inside := not_mem_cardsText noSpace noLetter board.dealt
  simp [groups, front, inside, noOpening, noClosing]

theorem lastBracketGroup?_text : lastBracketGroup? board.text = some (cardsText board.dealt) := by
  have noOpening : '[' ∉ cardsText board.dealt := not_mem_cardsText (by decide) (by decide) _
  have noClosing : ']' ∉ cardsText board.dealt := not_mem_cardsText (by decide) (by decide) _
  rw [text, groups, ← List.append_assoc]
  exact lastBracketGroup?_append noOpening noClosing _

/-- A letter that is neither in the name of the street nor in a card is not in the
marker. -/
theorem has_eq_false {needle : Text} {c : Char} (wanted : c ∈ needle)
    (noStars : c ∉ stars board.part) (noGroups : c ∉ board.groups) :
    has needle board.text = false := by
  have absent : c ∉ board.text := by
    rw [text, List.mem_append]
    intro inside
    exact inside.elim noStars noGroups
  rw [has, cut?_eq_none_of_not_mem wanted absent]
  rfl

/-- What begins with a capital letter behind the stars is found there. -/
theorem has_eq_true {c : Char} {front needle rest : Text} (absent : c ∉ front)
    (same : stars board.part = front ++ (c :: needle ++ rest)) :
    has (c :: needle) board.text = true := by
  have whole : board.text = front ++ (c :: needle ++ (rest ++ board.groups)) := by
    rw [text, same]
    simp
  rw [has, whole, cut?_of_not_mem absent]
  rfl

theorem ofMarker_text : BodyLine.ofMarker board.text =
    .board board.part (some (cardsText board.dealt)) := by
  have noF : 'F' ∉ board.groups :=
    board.not_mem_groups (by decide) (by decide) (by decide) (by decide)
  have noH : 'H' ∉ board.groups :=
    board.not_mem_groups (by decide) (by decide) (by decide) (by decide)
  have noU : 'U' ∉ board.groups :=
    board.not_mem_groups (by decide) (by decide) (by decide) (by decide)
  have noDash : '-' ∉ board.groups :=
    board.not_mem_groups (by decide) (by decide) (by decide) (by decide)
  have noPreflop : has "PRE-FLOP" board.text = false :=
    board.has_eq_false (show '-' ∈ "PRE-FLOP".toList by decide)
      (by cases board.part <;> decide) noDash
  have noHole : has "HOLE CARDS" board.text = false :=
    board.has_eq_false (show 'H' ∈ "HOLE CARDS".toList by decide)
      (by cases board.part <;> decide) noH
  have noFlop : board.part ≠ .flop → has "FLOP" board.text = false := fun other =>
    board.has_eq_false (show 'F' ∈ "FLOP".toList by decide)
      (by revert other; cases board.part <;> decide) noF
  have noTurn : board.part = .river → has "TURN" board.text = false := fun same =>
    board.has_eq_false (show 'U' ∈ "TURN".toList by decide) (by rw [same]; decide) noU
  rw [BodyLine.ofMarker, lastBracketGroup?_text, noPreflop, noHole]
  cases hpart : board.part with
  | flop =>
    have found : has "FLOP" board.text = true :=
      board.has_eq_true (show 'F' ∉ "*** ".toList by decide) (congrArg stars hpart)
    rw [found]
    rfl
  | turn =>
    have found : has "TURN" board.text = true :=
      board.has_eq_true (show 'T' ∉ "*** ".toList by decide) (congrArg stars hpart)
    rw [noFlop (by simp [hpart]), found]
    rfl
  | river =>
    have found : has "RIVER" board.text = true :=
      board.has_eq_true (show 'R' ∉ "*** ".toList by decide) (congrArg stars hpart)
    rw [noFlop (by simp [hpart]), noTurn hpart, found]
    rfl

/-- A marker is read as its street, with the group of the cards that are dealt. -/
theorem ofText_text (seatsOpen : Bool) : BodyLine.ofText seatsOpen board.text =
    .board board.part (some (cardsText board.dealt)) := by
  have starts : Starts board.text := by
    cases board <;> exact ⟨'*', _, rfl, by decide⟩
  have ends : Ends board.text :=
    ⟨stars board.part ++ (board.shown ++ '[' :: cardsText board.dealt), ']', by simp [text, groups],
      by decide⟩
  have noSummary : hasStart "*** SUMMARY ***" board.text = false := by cases board <;> rfl
  have noSeat : stripStart? "Seat " board.text = none := by cases board <;> rfl
  have marker : hasStart "*** " board.text = true := by cases board <;> rfl
  rw [BodyLine.ofText, trimLine_eq_self starts ends]
  simp only [List.isEmpty_iff, starts.ne_nil, if_false, noSummary, noSeat, BodyLine.ofOpenText,
    marker, if_true, Bool.false_eq_true]
  exact board.ofMarker_text

theorem isHandStart_text (room : Room) : room.isHandStart board.text = false := by
  cases room <;> cases board <;> rfl

end Board

/-! ## The cards of the hero -/

section Deals

variable (name : Name) (cards : List Card)

/-- The cards of a player behind the name. -/
def handText : Text := " [".toList ++ (cardsText cards ++ "]".toList)

def dealtText : Text := "Dealt to ".toList ++ (name.text ++ handText cards)

/-- Whether a posting is found in a deal is up to the name. -/
theorem has_dealtText (more : Text) :
    has (" posts ".toList ++ more) (dealtText name cards) =
      (decide (name.text = "posts".toList) &&
        hasStart more ('[' :: (cardsText cards ++ "]".toList))) := by
  have noP : 'p' ∉ handText cards := by
    have inside : 'p' ∉ cardsText cards := not_mem_cardsText (by decide) (by decide) cards
    simp [handText, inside]
  have behind : has (" posts ".toList ++ more) (handText cards) = false := by
    rw [has, cut?_eq_none_of_not_mem (List.mem_append_left more (by decide)) noP]
    rfl
  have first : hasStart ("posts ".toList ++ more) (name.text ++ handText cards) =
      (decide (name.text = "posts".toList) &&
        hasStart more ('[' :: (cardsText cards ++ "]".toList))) := by
    have next := @stripStart?_first "posts".toList name.text (by decide) name.space_not_mem more
      ('[' :: (cardsText cards ++ "]".toList))
    refine (congrArg Option.isSome next).trans ?_
    by_cases same : name.text = "posts".toList
    · rw [if_pos same, decide_eq_true same, Bool.true_and]
      rfl
    · rw [if_neg same, decide_eq_false same]
      rfl
  have skip : dealtText name cards =
      "Dealt".toList ++ ' ' :: ("to".toList ++ ' ' :: (name.text ++ handText cards)) := rfl
  have outside : hasStart ("posts ".toList ++ more)
      ("to".toList ++ ' ' :: (name.text ++ handText cards)) = false := rfl
  have found : has (' ' :: ("posts ".toList ++ more)) (dealtText name cards) =
      (hasStart ("posts ".toList ++ more) (name.text ++ handText cards) ||
        has (' ' :: ("posts ".toList ++ more)) (handText cards)) := by
    rw [skip, has_append (by decide), has_space (by decide), outside, Bool.false_or,
      has_space name.space_not_mem]
  refine found.trans ?_
  rw [first]
  exact (congrArg (_ || ·) behind).trans (Bool.or_false _)

variable {name cards}

/-- The line is trimmed, has no stars in front and posts no ante. -/
theorem ofText_dealtText (seatsOpen : Bool) : BodyLine.ofText seatsOpen (dealtText name cards) =
    if name.text = "posts".toList then .blind
    else .dealt name.text (some (cardsText cards)) := by
  have starts : Starts (dealtText name cards) := ⟨'D', _, rfl, by decide⟩
  have closing : Ends "]".toList := ⟨[], ']', rfl, by decide⟩
  have ends : Ends (dealtText name cards) :=
    (((closing.append (cardsText cards)).append " [".toList).append name.text).append _
  have noSummary : hasStart "*** SUMMARY ***" (dealtText name cards) = false := rfl
  have noSeat : stripStart? "Seat " (dealtText name cards) = none := rfl
  have noMarker : hasStart "*** " (dealtText name cards) = false := rfl
  have ante : has " posts ante" (dealtText name cards) = false :=
    (has_dealtText name cards "ante").trans (Bool.and_false _)
  have theAnte : has " posts the ante" (dealtText name cards) = false :=
    (has_dealtText name cards "the ante").trans (Bool.and_false _)
  have blind : has " posts " (dealtText name cards) = decide (name.text = "posts".toList) :=
    (has_dealtText name cards []).trans (Bool.and_true _)
  have dealt : stripStart? "Dealt to " (dealtText name cards) =
      some (name.text ++ handText cards) := rfl
  have cut : cut? " [" (name.text ++ handText cards) =
      some (name.text, cardsText cards ++ "]".toList) :=
    cut?_of_not_mem name.space_not_mem "[" (cardsText cards ++ "]".toList)
  have noOpening : '[' ∉ cardsText cards := not_mem_cardsText (by decide) (by decide) cards
  have noClosing : ']' ∉ cardsText cards := not_mem_cardsText (by decide) (by decide) cards
  have group : lastBracketGroup? (name.text ++ handText cards) = some (cardsText cards) := by
    have last := lastBracketGroup?_append noOpening noClosing (name.text ++ " ".toList)
    rwa [List.append_assoc] at last
  rw [BodyLine.ofText, trimLine_eq_self starts ends]
  simp only [List.isEmpty_iff, starts.ne_nil, if_false, noSummary, noSeat, BodyLine.ofOpenText,
    noMarker, ante, theAnte, blind, dealt, BodyLine.ofDealt, cut, group, name.trimLine_text,
    Bool.or_self, Bool.false_eq_true, decide_eq_true_eq]

theorem isHandStart_dealt (room : Room) : room.isHandStart (dealtText name cards) = false := by
  cases room <;> rfl

end Deals

/-! ## The summary -/

def summaryText : Text := "*** SUMMARY ***"

theorem ofText_summary (seatsOpen : Bool) : BodyLine.ofText seatsOpen summaryText = .summary := by
  revert seatsOpen
  decide

theorem isHandStart_summary (room : Room) : room.isHandStart summaryText = false := by
  cases room <;> rfl

end HandHistory.Written
