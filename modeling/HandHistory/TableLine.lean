import HandHistory.Seat

/-!
# Table lines

The line after a header names the table, the number of its seats and the seat
of the button. The name stands between the first and the last quote of the
line, so it may hold quotes itself. The seat count is the run of digits before
`-max`; the button is optional.
-/

namespace HandHistory

structure TableLine where
  table : Text
  maxSeats : Nat
  button : Seat
  isRealMoney? : Option Bool
  deriving DecidableEq, Repr

namespace TableLine

/-- A seat count, which must be a number. -/
def seatCount (file line digits : Text) : Except ParseError Nat :=
  match Numeral.word32? digits with
  | some n => .ok n
  | none => .error (.missingAnchor file .maxSeats line)

/-- The seat count that ends a text. The cut in front of it falls one byte behind
the last character that is no digit; a character of several bytes would be cut
in two, and the line cannot be read on. -/
def trailingCount (file line text : Text) : Except ParseError Nat :=
  let digits := (text.reverse.takeWhile Numeral.isDigit).reverse
  match text.reverse.dropWhile Numeral.isDigit with
  | last :: _ =>
    if 1 < last.utf8Size then .error (.splitCharacter file line) else seatCount file line digits
  | [] => seatCount file line digits

/-- The seat of the button, which a text names as in `Seat #3 is the button`. -/
def buttonIn (text : Text) : Seat :=
  match Text.between? "Seat #" " is the button" text with
  | some number => .ofNumberText number
  | none => .unknown

/-- The fields that both rooms print in the same way, with the money type told. -/
def ofFields (file line : Text) (isRealMoney? : Option Bool) : Except ParseError TableLine :=
  match Text.cut? "'" line with
  | none => .error (.missingAnchor file .quote line)
  | some (_, opened) =>
    match Text.cutLast? "'" opened with
    | none => .error (.missingAnchor file .quote line)
    | some (table, rest) =>
      match Text.cut? "-max" rest with
      | none => .error (.missingAnchor file .maxSeats line)
      | some (front, _) => do
        let maxSeats ← trailingCount file line front
        return { table, maxSeats, button := buttonIn rest, isRealMoney? }

end TableLine

end HandHistory
