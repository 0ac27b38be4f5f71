import HandHistory.Decimal

/-!
# The shortest decimal of a double

A double stands for all numbers that round to it. They are an interval around
its value, whose ends belong to it exactly if the significand is even. The
shortest decimal is the one with the fewest digits in that interval; of two
with equally many, the nearer to the value.

If a grid of decimals has a point in the interval at all, then one of the two
grid points beside the value is in it. So the search looks at these two on
grids of one digit, two digits and so on. Everything is counted in units so
small that value and ends are whole numbers.
-/

namespace HandHistory.Decimal.Shortest

/-- The number `digits * 10 ^ exponent`. -/
structure Scientific where
  digits : Nat
  exponent : Int
  deriving DecidableEq, Repr

namespace Scientific

/-- The number without zeros at the end of its digits. -/
def reduce : (fuel : Nat) → Scientific → Scientific
  | 0, s => s
  | fuel + 1, s =>
    if s.digits ≠ 0 ∧ s.digits % 10 = 0 then
      reduce fuel { digits := s.digits / 10, exponent := s.exponent + 1 }
    else s

end Scientific

/-- The numbers that round to a positive double, in units of `1 / unit`. -/
structure Interval where
  value : Nat
  low : Nat
  high : Nat
  unit : Nat
  isClosed : Bool
  deriving DecidableEq, Repr

namespace Interval

/-- The interval around `significand * 2 ^ exponent`. Below a power of two, the
neighbour is only half as far away as above it. -/
def around (significand : Nat) (exponent : Int) (isLowEndHalved : Bool) : Interval :=
  let up := Nat.pow 2 (exponent - 2).toNat
  { value := 4 * significand * up
    low := (4 * significand - (if isLowEndHalved then 1 else 2)) * up
    high := (4 * significand + 2) * up
    unit := Nat.pow 2 (2 - exponent).toNat
    isClosed := significand % 2 == 0 }

/-- Whether `numerator / denominator` lies in the interval. -/
def holds (interval : Interval) (numerator denominator : Nat) : Bool :=
  let point := numerator * interval.unit
  if interval.isClosed then
    interval.low * denominator ≤ point && point ≤ interval.high * denominator
  else
    interval.low * denominator < point && point < interval.high * denominator

/-- The number of digits in front of the point, zero or negative for a value below one. -/
def magnitude (interval : Interval) : Int :=
  if interval.unit ≤ interval.value then
    (Numeral.write (interval.value / interval.unit)).length
  else 1 - (Numeral.write ((interval.unit - 1) / interval.value)).length

/-- The nearest point on the grid of `10 ^ exponent` among those beside the value
that lie in the interval. -/
def onGrid? (interval : Interval) (exponent : Int) : Option Scientific :=
  let up := Nat.pow 10 exponent.toNat
  let down := Nat.pow 10 (-exponent).toNat
  let step := up * interval.unit
  let scaled := interval.value * down
  let below := scaled / step
  let holdsAt (digits : Nat) : Bool := interval.holds (digits * up) down
  let isLowNearer :=
    let twice := 2 * (scaled % step)
    twice < step || (twice == step && below % 2 == 0)
  match holdsAt below, holdsAt (below + 1) with
  | true, true => some ⟨if isLowNearer then below else below + 1, exponent⟩
  | true, false => some ⟨below, exponent⟩
  | false, true => some ⟨below + 1, exponent⟩
  | false, false => none

/-- The number of digits that tells any two doubles apart. -/
def enough : Nat := 17

/-- The point of the coarsest grid that has one in the interval. -/
def shortest (interval : Interval) : Scientific :=
  let magnitude := interval.magnitude
  let found := (List.range enough).findSome? fun digits =>
    interval.onGrid? (magnitude - (Int.ofNat digits + 1))
  (found.getD ⟨0, 0⟩).reduce enough

end Interval

/-- The shortest decimal of a positive finite double, read off its bits. -/
def ofBits (bits : Nat) : Scientific :=
  let hiddenBit := Nat.pow 2 52
  let fraction := bits % hiddenBit
  let biased := bits / hiddenBit % Nat.pow 2 11
  if biased = 0 then (Interval.around fraction (-1074) false).shortest
  else
    let isLowEndHalved := fraction == 0 && biased != 1
    (Interval.around (hiddenBit + fraction) ((biased : Int) - 1075) isLowEndHalved).shortest

end HandHistory.Decimal.Shortest
