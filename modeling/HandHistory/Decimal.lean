import HandHistory.Numeral

/-!
# Decimal fractions at the head of a text

Amounts are read in two steps. The first takes the longest run of digits with
at most one point and keeps it exactly, as a whole number over a power of ten.
The second rounds that number once, to the nearest double, with ties to even.
Nothing is rounded between the two steps, so equal numerals give equal doubles.
-/

namespace HandHistory

/-- The number `digits / 10 ^ places`. -/
structure Decimal where
  digits : Nat
  places : Nat
  deriving DecidableEq, Repr

namespace Decimal

/-- The numeral with these digits before and after its point. -/
def ofDigits (whole fraction : Text) : Decimal :=
  ⟨Numeral.ofDigits (whole ++ fraction), fraction.length⟩

/-- The digits after the point, if the text begins with one. -/
def fractionOf : Text → Text
  | '.' :: rest => rest.takeWhile Numeral.isDigit
  | _ => []

/-- The longest run of digits with at most one point that begins the text. There
is none without a digit; a point that ends the run adds nothing to it. -/
def leading? (text : Text) : Option Decimal :=
  let whole := text.takeWhile Numeral.isDigit
  let fraction := fractionOf (text.dropWhile Numeral.isDigit)
  if whole.isEmpty && fraction.isEmpty then none else some (ofDigits whole fraction)

/-- The nearest double; infinite beyond the largest one. -/
def toFloat (d : Decimal) : Float := Float.ofScientific d.digits true d.places

end Decimal

end HandHistory
