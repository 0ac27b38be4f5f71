import HandHistory.Draft
import HandHistory.Proofs.WrittenDeals
import HandHistory.Proofs.WrittenLines

/-!
# Written hands

`WrittenHand` is a hand as a room writes it: who sits where, then any number of
lines about the players at the table, then perhaps a summary. Its `texts` are what
stands in the file, and its `hand` is what they say, told without a draft: the last
ante, the last marker of each street, the winners in the order of their first line.

All of this is a function of the lines, and the last section says what one line
more makes of it.
-/

namespace HandHistory

namespace Written

/-! ## Lines and what they say -/

/-- A line behind the seats. -/
inductive Line where
  | blind (name : Name) (chips : Chips)
  | ante (name : Name) (chips : Chips)
  | dealt (name : Name) (cards : List Card) (few : cards.length ≤ 5)
  | preflop (holeCards : Bool)
  | board (board : Board)
  | deed (name : Name) (colon : Bool) (deed : Deed)
  | collected (name : Name) (chips : Chips)
  | wins (name : Name) (chips : Chips)

/-- An action without its position in the hand. -/
structure Move where
  player : Text
  street : Street
  kind : ActionKind
  amount : Float

/-- The action of a hand that a move is, in its place among the others. -/
def Move.action (handId : Text) (index : Nat) (move : Move) : Action :=
  { handId, player := move.player, street := move.street, kind := move.kind, index,
    amount := move.amount }

/-- The actions of a hand, numbered in the order of the moves. -/
def number (handId : Text) (moves : List Move) : List Action :=
  moves.mapIdx (Move.action handId)

/-- What a player does on a street. -/
def Deed.move (name : Name) (street : Street) (deed : Deed) : Move :=
  { player := name.text, street, kind := deed.kind, amount := deed.amount }

/-- A winner who does nothing else. -/
def silentMove (street : Street) (name : Text) : Move :=
  { player := name, street, kind := .silent, amount := 0 }

namespace Line

def text : Line → Text
  | blind name chips => blindText name chips
  | ante name chips => anteText name chips
  | dealt name cards _ => dealtText name cards
  | preflop holeCards => preflopText holeCards
  | board shown => shown.text
  | deed name colon done => done.text name colon
  | collected name chips => collectedText name chips
  | wins name chips => winsText name chips

/-- The player whom a line is about. -/
def name? : Line → Option Name
  | blind name _ | ante name _ | dealt name _ _ | deed name _ _ | collected name _
  | wins name _ => some name
  | preflop _ | board _ => none

/-- The street that a marker begins. -/
def street? : Line → Option Street
  | preflop _ => some .preflop
  | board shown => some (Draft.streetOf shown.part)
  | _ => none

def ante? : Line → Option Float
  | ante _ chips => some chips.value
  | _ => none

/-- The cards of the hero. -/
def cards? : Line → Option (List Card)
  | dealt _ cards _ => some cards
  | _ => none

/-- The cards that the marker of a street deals. -/
def board? (part : BoardPart) : Line → Option (List Card)
  | board shown => if shown.part = part then some shown.dealt else none
  | _ => none

def winner? : Line → Option Text
  | collected name _ | wins name _ => some name.text
  | _ => none

def move? (street : Street) : Line → Option Move
  | deed name _ done => some (done.move name street)
  | _ => none

end Line

/-- What the last of the lines says that says anything of it. -/
def lastOf {α : Type} (said? : Line → Option α) (otherwise : α) (lines : List Line) : α :=
  (lines.filterMap said?).getLastD otherwise

/-- The street behind some lines: the first one, if there is no marker. -/
def streetAfter (lines : List Line) : Street := lastOf Line.street? .preflop lines

/-- What the players do in some lines, of which the first is on a street. -/
def moves : (street : Street) → List Line → List Move
  | _, [] => []
  | street, line :: lines =>
    (line.move? street).toList ++ moves (line.street?.getD street) lines

/-- The cards that the last marker of a street deals. -/
def boardOf (part : BoardPart) (lines : List Line) : List Card := lastOf (Line.board? part) [] lines

def boardRow (lines : List Line) : CardRow :=
  #v[(boardOf .flop lines)[0]?, (boardOf .flop lines)[1]?, (boardOf .flop lines)[2]?,
    (boardOf .turn lines)[0]?, (boardOf .river lines)[0]?]

/-- The winners of some lines, each once, in the order in which they won. -/
def winnersOf (lines : List Line) : List Text := (lines.filterMap Line.winner?).eraseDups

/-- The winners who do nothing else, on the last street. -/
def silentMoves (lines : List Line) : List Move :=
  ((winnersOf lines).filter fun name => !(moves .preflop lines).any (·.player == name)).map
    (silentMove (streetAfter lines))

/-! ## One line more -/

/-- One more name counts if it was not there before. -/
theorem eraseDups_concat (names : List Text) (name : Text) :
    (names ++ [name]).eraseDups =
      if name ∈ names.eraseDups then names.eraseDups else names.eraseDups ++ [name] := by
  have known : name ∈ names.eraseDups ↔ name ∈ names := List.mem_eraseDups
  rw [List.eraseDups_append]
  by_cases inside : name ∈ names
  · rw [if_pos (known.2 inside), List.removeAll, List.filter_cons_of_neg (by simpa using inside)]
    exact List.append_nil _
  · rw [if_neg (mt known.1 inside), List.removeAll,
      List.filter_cons_of_pos (by simpa using inside)]
    rfl

section Concat

variable (lines : List Line) (line : Line)

theorem lastOf_concat {α : Type} (said? : Line → Option α) (otherwise : α) :
    lastOf said? otherwise (lines ++ [line]) =
      (said? line).getD (lastOf said? otherwise lines) := by
  cases said : said? line with
  | none => simp [lastOf, said]
  | some a => simp [lastOf, said]

theorem lastOf_cons {α : Type} (said? : Line → Option α) (otherwise : α) :
    lastOf said? otherwise (line :: lines) = lastOf said? ((said? line).getD otherwise) lines := by
  cases said : said? line with
  | none => simp [lastOf, said]
  | some a =>
    rw [lastOf, List.filterMap_cons_some said, List.getLastD_cons, lastOf, Option.getD_some]

theorem moves_concat (street : Street) : moves street (lines ++ [line]) =
    moves street lines ++ (line.move? (lastOf Line.street? street lines)).toList := by
  induction lines generalizing street with
  | nil => simp [moves, lastOf]
  | cons first lines ih => simp only [List.cons_append, moves, ih, lastOf_cons, List.append_assoc]

theorem boardRow_concat : boardRow (lines ++ [line]) =
    match line with
    | .board shown => Draft.boardWith shown.part (.ofCards shown.dealt) (boardRow lines)
    | _ => boardRow lines := by
  cases line with
  | board shown =>
    cases shown <;> simp only [boardRow, boardOf, lastOf_concat, Line.board?, Board.part] <;> rfl
  | _ => simp only [boardRow, boardOf, lastOf_concat, Line.board?, Option.getD_none]

theorem winnersOf_concat : winnersOf (lines ++ [line]) =
    line.winner?.elim (winnersOf lines) fun name =>
      if name ∈ winnersOf lines then winnersOf lines else winnersOf lines ++ [name] := by
  cases won : line.winner? with
  | none => simp [winnersOf, won]
  | some name =>
    have one : (lines ++ [line]).filterMap Line.winner? =
        lines.filterMap Line.winner? ++ [name] := by
      simp [won]
    rw [winnersOf, one, eraseDups_concat]
    rfl

/-- If cards are dealt once, the last line that says anything of them is that one. -/
theorem lastOf_of_dealt {lines : List Line} {line : Line} {α : Type} {said? : Line → Option α}
    (once : (lines.filterMap Line.cards?).length ≤ 1) (inside : line ∈ lines)
    (deals : line.cards? ≠ none) (silent : ∀ line : Line, line.cards? = none → said? line = none)
    (otherwise : α) : lastOf said? otherwise lines = (said? line).getD otherwise := by
  obtain ⟨before, after, rfl⟩ := List.append_of_mem inside
  obtain ⟨cards, hcards⟩ := Option.ne_none_iff_exists'.1 deals
  rw [List.filterMap_append, List.filterMap_cons_some hcards, List.length_append,
    List.length_cons] at once
  have noneBefore : before.filterMap Line.cards? = [] := List.eq_nil_of_length_eq_zero (by omega)
  have noneAfter : after.filterMap Line.cards? = [] := List.eq_nil_of_length_eq_zero (by omega)
  rw [List.filterMap_eq_nil_iff] at noneBefore noneAfter
  have silentBefore : before.filterMap said? = [] :=
    List.filterMap_eq_nil_iff.2 fun other hother => silent other (noneBefore other hother)
  have silentAfter : after.filterMap said? = [] :=
    List.filterMap_eq_nil_iff.2 fun other hother => silent other (noneAfter other hother)
  rw [lastOf, List.filterMap_append, silentBefore, List.nil_append, List.filterMap_cons]
  cases said? line with
  | none => simp [silentAfter]
  | some a => simp [silentAfter]

end Concat

/-! ## Hands -/

/-- A player in a seat. -/
structure Seated where
  place : Fin 10
  name : Name
  chips : Chips

def Seated.text (one : Seated) : Text := seatText one.place one.name one.chips

/-- The names of those who sit down, each in the place of the seat line. -/
def seatRow (seated : List Seated) : NameRow :=
  Vector.ofFn fun place =>
    ((seated.find? fun one => one.place = place).map fun one => one.name.text).getD []

variable {seated : List Seated} {one : Seated}

theorem getElem_seatRow (differ : (seated.map Seated.place).Nodup) (sits : one ∈ seated) :
    (seatRow seated)[one.place] = one.name.text := by
  have found : (seated.find? fun other => other.place = one.place) = some one := by
    cases h : seated.find? fun other => other.place = one.place with
    | none =>
      have absent := List.find?_eq_none.1 h one sits
      simp at absent
    | some other =>
      have same : other.place = one.place := by simpa using List.find?_some h
      rw [List.inj_on_of_nodup_map differ (List.mem_of_find?_eq_some h) sits same]
  simp [seatRow, found]

theorem mem_seatRow (differ : (seated.map Seated.place).Nodup) (sits : one ∈ seated) :
    one.name.text ∈ (seatRow seated).toList := by
  rw [Vector.mem_toList_iff, ← getElem_seatRow differ sits]
  exact Vector.getElem_mem _

theorem seatRow_concat (free : one.place ∉ seated.map Seated.place) :
    seatRow (seated ++ [one]) = (seatRow seated).put one.name.text one.place := by
  apply Vector.ext
  intro i hi
  rw [NameRow.getElem_put]
  simp only [seatRow, Vector.getElem_ofFn, List.find?_append]
  by_cases same : one.place.val = i
  · have nobody : (seated.find? fun other => other.place = ⟨i, hi⟩) = none := by
      apply List.find?_eq_none.2
      intro other hother taken
      have place : other.place = one.place := by
        rw [decide_eq_true_eq] at taken
        exact taken.trans (Fin.ext same.symm)
      exact free (place ▸ List.mem_map_of_mem hother)
    have here : one.place = ⟨i, hi⟩ := Fin.ext same
    simp [nobody, here]
  · have elsewhere : one.place ≠ ⟨i, hi⟩ := fun h => same (congrArg Fin.val h)
    simp [same, elsewhere]

end Written

open Written

/-- A hand as it is written behind its header and its table line. -/
structure WrittenHand (room : Room) where
  seated : List Seated
  lines : List Line
  /-- The lines behind the marker of the summary, if there is one. -/
  summary? : Option (List Text)
  occupied : seated ≠ []
  places_nodup : (seated.map Seated.place).Nodup
  about_seated : ∀ line ∈ lines, ∀ name ∈ line.name?, ∃ one ∈ seated, one.name.text = name.text
  dealt_once : (lines.filterMap Line.cards?).length ≤ 1
  summary_inside : ∀ texts ∈ summary?, ∀ text ∈ texts, room.isHandStart text = false

namespace WrittenHand

variable {room : Room} (written : WrittenHand room)

/-- The lines in the file. -/
def texts : List Text :=
  written.seated.map Seated.text ++
    (written.lines.map Line.text ++ written.summary?.elim [] (summaryText :: ·))

/-- What the lines say of the hand. -/
def hand (header : Header) (table : TableLine) : Hand :=
  { id := header.handId
    kind := header.kind
    site := room.siteName
    table := table.table
    button := table.button
    maxSeats := table.maxSeats
    level := header.level
    ante := lastOf Line.ante? 0 written.lines
    start := header.start
    heroCards := .ofCards (lastOf Line.cards? [] written.lines)
    board := boardRow written.lines
    seats := seatRow written.seated
    actions := number header.handId (moves .preflop written.lines ++ silentMoves written.lines)
    winners := .ofNames (winnersOf written.lines) }

/-- Cards are dealt to a player called `posts`. -/
def DealsToPosts : Prop :=
  ∃ name cards few, Line.dealt name cards few ∈ written.lines ∧ name.text = "posts".toList ∧
    cards ≠ []

end WrittenHand

end HandHistory
