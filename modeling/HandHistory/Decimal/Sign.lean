import HandHistory.Decimal
import Mathlib

/-!
# The sign of a double

A decimal has no sign, so the double nearest to it is a number and is not
negative. The double is made either by rounding the decimal itself or, where
digits and power of ten are doubles already, by dividing one by the other; both
ways keep a positive sign through rounding and through the packing into bits.
-/

namespace HandHistory.Decimal

open Float.Model

/-- A zero, a number or an infinity with a positive sign. -/
def isUnsigned : UnpackedFloat → Bool
  | .zero .positive | .finite .positive .. | .infinity .positive => true
  | _ => false

/-- A number above zero. -/
def isPositive : UnpackedFloat → Bool
  | .finite .positive .. => true
  | _ => false

/-! ## Rounding -/

theorem isUnsigned_round (significand : Nat) (exponent : Int) (accuracy : UnpackedFloat.Accuracy) :
    isUnsigned (UnpackedFloat.roundWithAccuracy .binary64 .positive significand exponent accuracy) =
      true := by
  simp only [UnpackedFloat.roundWithAccuracy]
  split <;> rfl

theorem isUnsigned_ofScientific (significand : Nat) (exponent : Int) :
    isUnsigned (UnpackedFloat.ofScientific .binary64 significand exponent) = true := by
  unfold UnpackedFloat.ofScientific
  split
  · rfl
  · split
    · rfl
    · split
      · rfl
      · split <;> exact isUnsigned_round ..

theorem isUnsigned_div {a b : UnpackedFloat} (ha : isUnsigned a = true) (hb : isPositive b = true) :
    isUnsigned (UnpackedFloat.div .binary64 a b) = true := by
  match a, ha, b, hb with
  | .infinity .positive, _, .finite .positive .., _ => rfl
  | .zero .positive, _, .finite .positive .., _ => rfl
  | .finite .positive .., _, .finite .positive .., _ => exact isUnsigned_round ..

/-! ## Packing -/

theorem unpackSign_packComponents {format : Format} {sign : UnpackedFloat.Sign}
    {exponent : BitVec format.exponentBits}
    {mantissa : BitVec format.mantissaBitsWithoutImplicit} :
    UnpackedFloat.unpackSign (UnpackedFloat.packComponents format sign exponent mantissa) =
      sign.toBitVec := by
  ext i hi
  have first : i = 0 := by omega
  have above : ¬ format.mantissaBitsWithoutImplicit + format.exponentBits <
      format.mantissaBitsWithoutImplicit := by omega
  subst first
  simp [UnpackedFloat.unpackSign, UnpackedFloat.packComponents, BitVec.getLsbD_append,
    BitVec.getElem_append, above]

/-- Bits with a positive sign stand for no negative number, and with an exponent
below the largest or without a fraction for a number. -/
theorem isUnsigned_unpack {exponent : BitVec 11} {mantissa : BitVec 52}
    (isNumber : exponent ≠ -1#_ ∨ mantissa = 0#_) :
    isUnsigned (UnpackedFloat.unpack .binary64
      (UnpackedFloat.packComponents .binary64 .positive exponent mantissa)) = true := by
  unfold UnpackedFloat.unpack
  simp only [UnpackedFloat.unpackMantissa_packComponents,
    UnpackedFloat.unpackExponent_packComponents, unpackSign_packComponents]
  split
  · next largest =>
    rcases isNumber with smaller | rfl
    · exact absurd largest smaller
    · rfl
  · split
    · split <;> rfl
    · rfl

theorem isUnsigned_pack {f : UnpackedFloat} (h : isUnsigned f = true) :
    isUnsigned (Float.Model.pack f).unpack = true := by
  unfold Float.Model.unpack Float.Model.pack
  dsimp only
  match f, h with
  | .infinity .positive, _ => exact isUnsigned_unpack (Or.inr rfl)
  | .zero .positive, _ => exact isUnsigned_unpack (Or.inr rfl)
  | .finite .positive .., _ =>
    simp only [UnpackedFloat.pack]
    split
    · exact isUnsigned_unpack (Or.inr rfl)
    · next bounded =>
      split
      · refine isUnsigned_unpack (Or.inl fun largest => ?_)
        have same := congrArg BitVec.toNat largest
        simp at same bounded
        omega
      · exact isUnsigned_unpack (Or.inl (by decide))

/-! ## The double of a decimal -/

theorem isUnsigned_normalize {significand : Int} (notNegative : 0 ≤ significand) (exponent : Int) :
    isUnsigned (UnpackedFloat.normalize .binary64 significand exponent .positive) = true := by
  unfold UnpackedFloat.normalize
  split
  · next below =>
    have := Int.compare_eq_lt.1 below
    omega
  · rfl
  · exact isUnsigned_round ..

theorem isUnsigned_ofUInt64 (n : UInt64) : isUnsigned (Float.Model.ofUInt64 n).unpack = true := by
  refine isUnsigned_pack ?_
  unfold UnpackedFloat.ofUInt64 UnpackedFloat.ofNat UnpackedFloat.ofInt
  exact isUnsigned_normalize (Int.natCast_nonneg _) _

theorem isPositive_power {places : Nat}
    (bound : places < Float.exactlyRepresentablePowersOfTen.size) :
    isPositive Float.exactlyRepresentablePowersOfTen[places].toModel.unpack = true := by
  have all : Float.exactlyRepresentablePowersOfTen.all
      (fun power => isPositive power.toModel.unpack) = true := by decide +kernel
  exact Array.all_eq_true.1 all places bound

theorem isUnsigned_toFloat (d : Decimal) : isUnsigned d.toFloat.toModel.unpack = true := by
  unfold toFloat Float.ofScientific
  split
  · next small =>
    have bound : d.places < Float.exactlyRepresentablePowersOfTen.size := by
      have : Float.exactlyRepresentablePowersOfTen.size = 23 := rfl
      omega
    exact isUnsigned_pack (isUnsigned_div (isUnsigned_ofUInt64 _) (isPositive_power bound))
  · exact isUnsigned_pack (isUnsigned_ofScientific _ _)

/-! ## Comparison with zero -/

theorem unpack_zero : (0 : Float).toModel.unpack = .zero .positive := by
  show Float.Model.unpack _ = _
  with_unfolding_all rfl

theorem lt_zero_iff {x : Float} : x < 0 ↔ x.toModel.unpack.lt (.zero .positive) = true := by
  rw [← unpack_zero]
  exact decide_eq_true_iff

theorem zero_le_iff_unpack {x : Float} :
    0 ≤ x ↔ (UnpackedFloat.zero .positive).le x.toModel.unpack = true := by
  rw [← unpack_zero]
  exact decide_eq_true_iff

/-- A double is at least zero just if it is a number and not below zero. -/
theorem zero_le_iff {x : Float} : 0 ≤ x ↔ ¬ x < 0 ∧ x.isNaN = false := by
  have split : ∀ f : UnpackedFloat, (UnpackedFloat.zero .positive).le f =
      (!f.lt (.zero .positive) && !f.isNaN) := by
    intro f
    rcases f with ⟨_ | _⟩ | _ | ⟨_ | _⟩ | ⟨_ | _, _, _, _⟩ <;> rfl
  rw [lt_zero_iff, zero_le_iff_unpack, split]
  show _ ↔ _ ∧ x.toModel.unpack.isNaN = false
  simp

theorem zero_le_of_isUnsigned {x : Float} (unsigned : isUnsigned x.toModel.unpack = true) :
    0 ≤ x := by
  apply zero_le_iff_unpack.2
  match x.toModel.unpack, unsigned with
  | .infinity .positive, _ => rfl
  | .zero .positive, _ => rfl
  | .finite .positive .., _ => rfl

/-- The double of a decimal is a number. -/
theorem isNaN_toFloat (d : Decimal) : d.toFloat.isNaN = false :=
  (zero_le_iff.1 (zero_le_of_isUnsigned (isUnsigned_toFloat d))).2

/-- The double of a decimal is not negative. -/
theorem not_toFloat_lt_zero (d : Decimal) : ¬ d.toFloat < 0 :=
  (zero_le_iff.1 (zero_le_of_isUnsigned (isUnsigned_toFloat d))).1

/-! ## Sums -/

theorem isUnsigned_add {a b : UnpackedFloat} (ha : isUnsigned a = true)
    (hb : isUnsigned b = true) : isUnsigned (UnpackedFloat.add .binary64 a b) = true := by
  match a, ha, b, hb with
  | .infinity .positive, _, .infinity .positive, _ => rfl
  | .infinity .positive, _, .zero .positive, _ => rfl
  | .infinity .positive, _, .finite .positive .., _ => rfl
  | .zero .positive, _, .infinity .positive, _ => rfl
  | .zero .positive, _, .zero .positive, _ => rfl
  | .zero .positive, _, .finite .positive .., _ => rfl
  | .finite .positive .., _, .infinity .positive, _ => rfl
  | .finite .positive .., _, .zero .positive, _ => rfl
  | .finite .positive .., _, .finite .positive .., _ =>
    exact isUnsigned_normalize (Int.add_nonneg (Int.natCast_nonneg _) (Int.natCast_nonneg _)) _

/-- The sum of doubles without a sign has none, also where it is infinite. -/
theorem isUnsigned_sum {x y : Float} (hx : isUnsigned x.toModel.unpack = true)
    (hy : isUnsigned y.toModel.unpack = true) : isUnsigned (x + y).toModel.unpack = true :=
  isUnsigned_pack (isUnsigned_add hx hy)

end HandHistory.Decimal
