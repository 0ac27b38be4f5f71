import HandHistory.Error
import HandHistory.Numeral
import HandHistory.Text.Blank

/-!
# Seats

A table has ten places, numbered from one in a history and from zero in a row
of names. A seat is one of the places or unknown; a number outside one to ten
is not an error but an unknown seat. Only the reader of a seat token refuses.
-/

namespace HandHistory

/-- One of the ten places of a table, or none that is known. -/
inductive Seat where
  | place (index : Fin 10)
  | unknown
  deriving DecidableEq, Repr

/-- The names at the ten places of a table; a free place has the empty name. -/
abbrev NameRow := Vector Text 10

namespace Seat

/-- The ten places in order. -/
def all : List Seat := (List.finRange 10).map .place

/-- The seat at a position counted from zero. -/
def ofIndex (index : Nat) : Seat :=
  if h : index < 10 then .place ⟨index, h⟩ else .unknown

/-- The seat with a number counted from one. -/
def ofNumber : Nat → Seat
  | 0 => .unknown
  | index + 1 => ofIndex index

/-- The position counted from zero. -/
def index? : Seat → Option (Fin 10)
  | .place index => some index
  | .unknown => none

/-- The number counted from one, zero for an unknown seat. -/
def number : Seat → Nat
  | .place index => index.val + 1
  | .unknown => 0

def isKnown : Seat → Bool
  | .place _ => true
  | .unknown => false

/-- The names of the ten places. -/
def placeNames : Vector Text 10 :=
  #v["One".toList, "Two".toList, "Three".toList, "Four".toList, "Five".toList,
     "Six".toList, "Seven".toList, "Eight".toList, "Nine".toList, "Ten".toList]

def name : Seat → Text
  | .place index => placeNames.get index
  | .unknown => "Unknown"

/-- The number as text, or `unknown`. -/
def token : Seat → Text
  | .place index => Numeral.write (index.val + 1)
  | .unknown => "unknown"

/-- Reads `unknown` or a number from one to ten. -/
def ofToken (text : Text) : Except TokenError Seat :=
  if text = "unknown".toList then .ok .unknown
  else
    match Numeral.word32? text with
    | some n => if 1 ≤ n ∧ n ≤ 10 then .ok (ofNumber n) else .error ⟨.seat, text⟩
    | none => .error ⟨.seat, text⟩

/-- The seat whose number is a text, with blanks allowed around it; a text that is
no number names no known seat. -/
def ofNumberText (text : Text) : Seat :=
  (Numeral.word32? (Text.trimBlank text)).elim .unknown ofNumber

@[simp] theorem number_ofNumber {n : Nat} (low : 1 ≤ n) (high : n ≤ 10) :
    (ofNumber n).number = n := by
  cases n with
  | zero => omega
  | succ index =>
    have : index < 10 := by omega
    simp [ofNumber, ofIndex, this, number]

end Seat

namespace NameRow

def free : NameRow := Vector.replicate 10 []

/-- The first ten names of a list; missing ones are free places. -/
def ofNames (names : List Text) : NameRow := Vector.ofFn fun i => (names[i.val]?).getD []

/-- The row with a name at a place. -/
def put (row : NameRow) (name : Text) : (place : Fin 10) → NameRow
  | ⟨place, inRow⟩ => row.set place name inRow

theorem getElem_put (row : NameRow) (name : Text) (place : Fin 10) {i : Nat} (hi : i < 10) :
    (row.put name place)[i] = if place.val = i then name else row[i] :=
  Vector.getElem_set place.isLt hi

theorem toList_put (row : NameRow) (name : Text) (place : Fin 10) :
    (row.put name place).toList = row.toList.set place.val name :=
  Vector.toList_set place.isLt

/-- The names of the taken places, in order. -/
def taken (row : NameRow) : List Text := row.toList.filter fun name => !name.isEmpty

end NameRow

end HandHistory
