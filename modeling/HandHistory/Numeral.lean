import HandHistory.Text

/-!
# Whole numbers in decimal

A seat count, a seat number or a worker count is written with ASCII digits,
possibly after a plus sign and with leading zeros. A number that does not fit
the width its reader allows is refused, never wrapped.
-/

namespace HandHistory.Numeral

/-- Whether a character is one of `0` to `9`. -/
def isDigit (c : Char) : Bool := c.isDigit

/-- The number that a run of digits denotes, most significant digit first. -/
def ofDigits (digits : Text) : Nat :=
  digits.foldl (fun n c => 10 * n + (c.toNat - '0'.toNat)) 0

/-- A number below `bound`: an optional plus sign and one or more digits. -/
def read? (bound : Nat) (text : Text) : Option Nat :=
  let digits := (Text.stripStart? "+" text).getD text
  if !digits.isEmpty && digits.all isDigit && ofDigits digits < bound then
    some (ofDigits digits)
  else none

/-- A number of thirty-two bits. -/
def word32? (text : Text) : Option Nat := read? UInt32.size text

/-- A number of sixty-four bits. -/
def word64? (text : Text) : Option Nat := read? UInt64.size text

/-- The digits of a number without leading zeros. -/
def write (n : Nat) : Text := Nat.toDigits 10 n

/-- A number with at least `width` digits, zeros in front. -/
def writePadded (width n : Nat) : Text :=
  List.replicate (width - (write n).length) '0' ++ write n

/-- The digits of an integer, behind a minus sign where it is negative. -/
def writeInt (n : Int) : Text :=
  if n < 0 then '-' :: write n.natAbs else write n.natAbs

/-! ## Reading what is written -/

theorem write_ne_nil (n : Nat) : write n ≠ [] := Nat.toDigits_ne_nil

theorem isDigit_of_mem_write {n : Nat} {c : Char} (inside : c ∈ write n) : isDigit c = true :=
  Nat.isDigit_of_mem_toDigits (by decide) (by decide) inside

theorem ofDigits_write (n : Nat) : ofDigits (write n) = n :=
  Nat.ofDigitChars_eq_foldl.symm.trans Nat.ofDigitChars_ten_toDigits

/-- A text that begins with no plus sign is read as it stands. -/
theorem read?_of_unsigned {text : Text} (unsigned : text.head? ≠ some '+') (bound : Nat) :
    read? bound text =
      if !text.isEmpty && text.all isDigit && ofDigits text < bound then some (ofDigits text)
      else none := by
  have noSign : Text.stripStart? "+" text = none := by
    cases text with
    | nil => rfl
    | cons c rest =>
      have different : '+' ≠ c := fun same => unsigned (congrArg some same.symm)
      exact if_neg different
  rw [read?, noSign, Option.getD_none]

/-- A written number is read just if it fits. -/
theorem read?_write (bound n : Nat) :
    read? bound (write n) = if n < bound then some n else none := by
  have unsigned : (write n).head? ≠ some '+' := by
    intro plus
    cases isDigit_of_mem_write (List.mem_of_head? plus)
  have digits : (write n).all isDigit = true := List.all_eq_true.2 fun _ => isDigit_of_mem_write
  rw [read?_of_unsigned unsigned, digits, ofDigits_write]
  simp [write_ne_nil]

/-- No negative number is read, however wide the reader. -/
theorem read?_writeInt_of_neg {n : Int} (negative : n < 0) (bound : Nat) :
    read? bound (writeInt n) = none := by
  rw [writeInt, if_pos negative, read?_of_unsigned (by simp)]
  rfl

end HandHistory.Numeral
