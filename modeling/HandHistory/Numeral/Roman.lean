import HandHistory.Text

/-!
# Roman numerals

A tournament level is printed as a Roman numeral. The reading is additive: a
letter counts against the total exactly when the next letter is larger. No rule
of good form is imposed, so `IIX` has a value; any foreign letter makes the
whole numeral worth nothing.
-/

namespace HandHistory.Numeral.Roman

def letterValue? : Char → Option Nat
  | 'I' => some 1
  | 'V' => some 5
  | 'X' => some 10
  | 'L' => some 50
  | 'C' => some 100
  | 'D' => some 500
  | 'M' => some 1000
  | _ => none

/-- The signed sum of letter values, where a value before a larger one is subtracted. -/
def total : List Nat → Int
  | [] => 0
  | [value] => value
  | value :: next :: rest =>
    (if value < next then -(value : Int) else value) + total (next :: rest)

/-- The value of a numeral, kept to thirty-two bits; zero when it is empty or
holds a character that is no Roman letter. -/
def value (text : Text) : Nat :=
  match text.mapM letterValue? with
  | none => 0
  | some values => (total values).toNat % UInt32.size

end HandHistory.Numeral.Roman
