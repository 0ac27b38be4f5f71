import HandHistory.Decimal.Sign

/-!
# Whole numbers as doubles

A whole number below `2 ^ 53` is a double, and the others are rounded to doubles that are
no smaller than `2 ^ 53`. A double is turned into thirty-two bits by cutting off its
fraction and by keeping it below `2 ^ 32`. Together, a numeral of digits is read as its
value, and beyond thirty-two bits as the largest one.

A double of normal size has a significand of 53 bits (`Normal`). The steps of a division and
of a rounding are followed on such significands.
-/

namespace HandHistory.Decimal

open Float.Model UnpackedFloat

/-- The significand has its highest bit at the place of the implicit one. -/
def Normal (m : Nat) : Prop := 2 ^ 52 ≤ m ∧ m < 2 ^ 53

variable {m : Nat}

theorem Normal.ne_zero (normal : Normal m) : m ≠ 0 := by
  rintro rfl
  exact absurd normal.1 (by decide)

theorem Normal.log2_eq (normal : Normal m) : m.log2 = 52 :=
  (Nat.log2_eq_iff normal.ne_zero).2 normal

theorem Normal.log2_mul (normal : Normal m) (k : Nat) : (m * 2 ^ k).log2 = 52 + k := by
  have positive : m * 2 ^ k ≠ 0 := Nat.mul_ne_zero normal.ne_zero (by simp)
  rw [Nat.log2_eq_iff positive, Nat.pow_add, show 52 + k + 1 = 53 + k by omega, Nat.pow_add]
  exact ⟨Nat.mul_le_mul_right _ normal.1, Nat.mul_lt_mul_of_pos_right normal.2 (by simp)⟩

/-- The significand of a number, shifted to its place. -/
theorem normal_shift (positive : m ≠ 0) (small : m < 2 ^ 53) : Normal (m * 2 ^ (52 - m.log2)) := by
  have top : m.log2 ≤ 52 := Nat.lt_succ_iff.1 ((Nat.log2_lt positive).2 small)
  obtain ⟨low, high⟩ := (Nat.log2_eq_iff positive).1 rfl
  constructor
  · calc 2 ^ 52 = 2 ^ m.log2 * 2 ^ (52 - m.log2) := by rw [← Nat.pow_add]; congr 1; omega
      _ ≤ m * 2 ^ (52 - m.log2) := Nat.mul_le_mul_right _ low
  · calc m * 2 ^ (52 - m.log2) < 2 ^ (m.log2 + 1) * 2 ^ (52 - m.log2) :=
        Nat.mul_lt_mul_of_pos_right high (by simp)
      _ = 2 ^ 53 := by rw [← Nat.pow_add]; congr 1; omega

/-! ## Shifting and rounding -/

theorem mantissa_shiftRight (em : ExtendedMantissa) (k : Nat) :
    (em >>> k).mantissa = em.mantissa / 2 ^ k := by
  show (k.repeat ExtendedMantissa.shiftRightOne em).mantissa = em.mantissa / 2 ^ k
  induction k with
  | zero => simp [Nat.repeat]
  | succ k ih =>
    show (k.repeat ExtendedMantissa.shiftRightOne em).mantissa / 2 = _
    rw [ih, Nat.div_div_eq_div_mul, Nat.pow_succ]

/-- Nothing is lost in shifting out zeros. -/
theorem exact_shiftRight (m k : Nat) :
    ExtendedMantissa.ofMantissaAndAccuracy (m * 2 ^ k) .exact >>> k = ⟨m, false, false⟩ := by
  show k.repeat ExtendedMantissa.shiftRightOne ⟨m * 2 ^ k, false, false⟩ = _
  induction k generalizing m with
  | zero => simp [Nat.repeat]
  | succ k ih =>
    have even : m * 2 ^ (k + 1) = m * 2 * 2 ^ k := by
      rw [Nat.pow_succ, Nat.mul_comm (2 ^ k) 2, Nat.mul_assoc]
    rw [even]
    show (k.repeat ExtendedMantissa.shiftRightOne ⟨m * 2 * 2 ^ k, false, false⟩).shiftRightOne = _
    rw [ih]
    simp [ExtendedMantissa.shiftRightOne]

theorem roundedMantissa_bounds (em : ExtendedMantissa) :
    em.mantissa ≤ em.roundedMantissa ∧ em.roundedMantissa ≤ em.mantissa + 1 := by
  rcases em with ⟨m, _ | _, _ | _⟩ <;>
    simp only [ExtendedMantissa.roundedMantissa, ExtendedMantissa.accuracy,
      Accuracy.roundToNearestEven] <;> omega

/-- The exponent that a number with this highest bit is given, unless it is tiny. -/
theorem targetExponent_eq {m : Nat} {e : Int} {k : Nat} (top : m.log2 = 52 + k)
    (notTiny : -1074 ≤ e + k) : Format.binary64.targetExponent (totalExponent m e) = e + k := by
  simp only [Format.targetExponent, totalExponent, top, Format.mantissaBits, Format.minExponent]
  norm_num
  omega

theorem shiftToTargetExponent_eq {m : Nat} {e : Int} {k : Nat} (accuracy : Accuracy)
    (top : m.log2 = 52 + k) (notTiny : -1074 ≤ e + k) :
    shiftToTargetExponent .binary64 m e accuracy =
      (ExtendedMantissa.ofMantissaAndAccuracy m accuracy >>> k, e + k) := by
  have amount : (e + k - e).toNat = k := by omega
  rw [shiftToTargetExponent, targetExponent_eq top notTiny, shiftToExponent, amount]

/-- A normal significand that is followed by zeros is its own rounding. -/
theorem roundWithAccuracy_exact {e : Int} {k : Nat} (normal : Normal m) (notTiny : -1074 ≤ e + k) :
    roundWithAccuracy .binary64 .positive (m * 2 ^ k) e .exact =
      .finite .positive m (e + k) (Nat.pos_of_ne_zero normal.ne_zero) := by
  have again : -1074 ≤ e + k + (0 : Nat) := by omega
  have rounded : (⟨m, false, false⟩ : ExtendedMantissa).roundedMantissa = m := rfl
  have still : ExtendedMantissa.ofMantissaAndAccuracy m .exact >>> 0 = ⟨m, false, false⟩ := rfl
  rw [roundWithAccuracy, shiftToTargetExponent_eq _ (normal.log2_mul k) notTiny]
  dsimp only
  rw [exact_shiftRight, rounded, shiftToTargetExponent_eq _ normal.log2_eq again, still]
  dsimp only
  rw [dif_neg normal.ne_zero]
  simp

/-- A large significand is rounded to a normal one, and to no smaller exponent. -/
theorem exists_roundWithAccuracy {n : Nat} {e : Int} {k : Nat} (positive : n ≠ 0)
    (top : n.log2 = 52 + k) (notTiny : -1074 ≤ e + k) :
    ∃ m e' pos, Normal m ∧ e + k ≤ e' ∧
      roundWithAccuracy .binary64 .positive n e .exact = .finite .positive m e' pos := by
  obtain ⟨low, high⟩ := (Nat.log2_eq_iff positive).1 top
  rw [show 52 + k + 1 = 53 + k by omega] at high
  rw [Nat.pow_add] at low high
  -- rounding may carry into one more bit, which a second shift takes back
  have carried : ∃ m j, Normal m ∧
      (ExtendedMantissa.ofMantissaAndAccuracy n .exact >>> k).roundedMantissa = m * 2 ^ j := by
    have bounds := roundedMantissa_bounds (ExtendedMantissa.ofMantissaAndAccuracy n .exact >>> k)
    rw [mantissa_shiftRight] at bounds
    change n / 2 ^ k ≤ _ ∧ _ ≤ n / 2 ^ k + 1 at bounds
    have least : 2 ^ 52 ≤ n / 2 ^ k := (Nat.le_div_iff_mul_le (by simp)).2 low
    have most : n / 2 ^ k < 2 ^ 53 := (Nat.div_lt_iff_lt_mul (by simp)).2 high
    generalize (ExtendedMantissa.ofMantissaAndAccuracy n .exact >>> k).roundedMantissa = r at bounds
    by_cases carry : r = 2 ^ 53
    · exact ⟨2 ^ 52, 1, ⟨le_refl _, by decide⟩, by rw [carry]; rfl⟩
    · exact ⟨r, 0, ⟨by omega, by omega⟩, by simp⟩
  obtain ⟨m, j, normal, rounded⟩ := carried
  have again : -1074 ≤ e + k + (j : Int) := by omega
  refine ⟨m, e + k + j, Nat.pos_of_ne_zero normal.ne_zero, normal, by omega, ?_⟩
  rw [roundWithAccuracy, shiftToTargetExponent_eq _ top notTiny]
  dsimp only
  rw [rounded, shiftToTargetExponent_eq _ (normal.log2_mul j) again]
  dsimp only
  rw [exact_shiftRight, dif_neg normal.ne_zero]

/-! ## Packing -/

theorem toNat_implicit (normal : Normal m) : (1#1 ++ BitVec.ofNat 52 m).toNat = m := by
  obtain ⟨low, high⟩ := normal
  have rest : (BitVec.ofNat 52 m).toNat = m - 2 ^ 52 := by
    rw [BitVec.toNat_ofNat]
    omega
  rw [BitVec.toNat_append, ← Nat.shiftLeft_add_eq_or_of_lt (BitVec.isLt _), rest]
  simp only [BitVec.toNat_ofNat, Nat.shiftLeft_eq]
  omega

theorem unpack_packComponents {exponent : BitVec 11} (normal : Normal m) (pos : 0 < m)
    (notLargest : exponent ≠ -1#_) (notLeast : exponent ≠ 0#_) :
    UnpackedFloat.unpack .binary64
        (packComponents .binary64 .positive exponent (BitVec.ofNat 52 m)) =
      .finite .positive m (exponent.toNat - 1075) pos := by
  have sign : Sign.ofBitVec Sign.positive.toBitVec = .positive := rfl
  unfold UnpackedFloat.unpack
  simp only [unpackMantissa_packComponents, unpackExponent_packComponents,
    unpackSign_packComponents, notLargest, notLeast, if_false, sign, toNat_implicit normal]
  rfl

/-- A normal significand comes through the packing, unless its exponent is too large. -/
theorem unpack_pack {e : Int} (normal : Normal m) (pos : 0 < m) (notTiny : -1074 ≤ e) :
    (Float.Model.pack (.finite .positive m e pos)).unpack =
      if e ≤ 971 then .finite .positive m e pos else .infinity .positive := by
  have bias : (e + (Format.binary64.exponentBias : Int) + (52 : Nat)).toNat = (e + 1075).toNat := by
    rw [Format.exponentBias]
    norm_num
    omega
  have implicit : m.log2 + 1 = Format.binary64.mantissaBits := by rw [normal.log2_eq]; rfl
  unfold Float.Model.unpack Float.Model.pack UnpackedFloat.pack
  dsimp only
  rw [bias]
  by_cases within : e ≤ 971
  · rw [if_pos within, if_neg (by norm_num; omega), if_pos implicit]
    have exponent : (BitVec.ofNat 11 (e + 1075).toNat).toNat = (e + 1075).toNat := by
      rw [BitVec.toNat_ofNat]
      omega
    have notLargest : BitVec.ofNat 11 (e + 1075).toNat ≠ -1#_ := by
      intro largest
      have := congrArg BitVec.toNat largest
      rw [exponent] at this
      simp at this
      omega
    have notLeast : BitVec.ofNat 11 (e + 1075).toNat ≠ 0#_ := by
      intro least
      have := congrArg BitVec.toNat least
      rw [exponent] at this
      simp at this
      omega
    refine (unpack_packComponents normal pos notLargest notLeast).trans ?_
    rw [exponent]
    congr 1
    omega
  · rw [if_neg within, if_pos (by norm_num; omega)]
    rfl

/-! ## Cutting off the fraction -/

/-- The whole part of a double of normal size. -/
theorem toInt_finite {e : Int} (pos : 0 < m) (low high : Int) :
    (UnpackedFloat.finite .positive m e pos).toInt low high =
      ((m * 2 ^ e.toNat / 2 ^ (-e).toNat : Nat) : Int) := by
  have shift : (e - 0).toNat = e.toNat ∧ (0 - (e - e.toNat)).toNat = (-e).toNat := by omega
  rw [UnpackedFloat.toInt, roundToInt, decreaseExponent]
  dsimp only
  rw [shift.1, shiftToExponent]
  dsimp only
  rw [shift.2, mantissa_shiftRight, Nat.shiftLeft_eq]
  rfl

theorem toNat_ofNatClamp (n : Nat) : (UInt32.ofNatClamp n).toNat = min n (2 ^ 32 - 1) := by
  rw [UInt32.ofNatClamp]
  have size : UInt32.size = 2 ^ 32 := rfl
  split
  · next small =>
    rw [UInt32.toNat_ofNatLT]
    omega
  · next large =>
    rw [UInt32.toNat_ofNatLT]
    omega

/-! ## The double of a whole number -/

/-- A small number becomes a double by being shifted to its place. -/
theorem unpack_ofUInt64 {n : UInt64} (positive : n.toNat ≠ 0) (small : n.toNat < 2 ^ 53) :
    (Float.Model.ofUInt64 n).unpack =
      .finite .positive (n.toNat * 2 ^ (52 - n.toNat.log2)) (n.toNat.log2 - 52 : Int)
        (Nat.pos_of_ne_zero (normal_shift positive small).ne_zero) := by
  have normal := normal_shift positive small
  have top : n.toNat.log2 ≤ 52 := Nat.lt_succ_iff.1 ((Nat.log2_lt positive).2 small)
  have target : Format.binary64.targetExponent (totalExponent n.toNat 0) = n.toNat.log2 - 52 := by
    simp only [Format.targetExponent, totalExponent, Format.mantissaBits, Format.minExponent]
    norm_num
    omega
  have gap : (0 - ((n.toNat.log2 : Int) - 52)).toNat = 52 - n.toNat.log2 := by omega
  have above : compare (n.toNat : Int) 0 = .gt := Int.compare_eq_gt.2 (by omega)
  have exponent : (0 : Int) - (52 - n.toNat.log2 : Nat) + (0 : Nat) = n.toNat.log2 - 52 := by omega
  have rounded := @roundWithAccuracy_exact _ (0 - (52 - n.toNat.log2 : Nat)) 0 normal (by omega)
  rw [Nat.pow_zero, Nat.mul_one] at rounded
  have whole : UnpackedFloat.ofUInt64 .binary64 n =
      .finite .positive (n.toNat * 2 ^ (52 - n.toNat.log2)) (n.toNat.log2 - 52 : Int)
        (Nat.pos_of_ne_zero normal.ne_zero) := by
    rw [UnpackedFloat.ofUInt64, UnpackedFloat.ofNat, UnpackedFloat.ofInt,
      UnpackedFloat.normalize, above]
    dsimp only
    rw [UnpackedFloat.round, Int.toNat_natCast, target, decreaseExponent, gap, Nat.shiftLeft_eq]
    dsimp only
    rw [rounded]
    simp only [exponent]
  rw [Float.Model.ofUInt64, whole, unpack_pack normal _ (by omega), if_pos (by omega)]

/-- A division by one changes nothing. -/
theorem div_one {e : Int} (normal : Normal m) (pos : 0 < m) (onePos : 0 < 2 ^ 52)
    (notTiny : -1073 ≤ e) :
    UnpackedFloat.div .binary64 (.finite .positive m e pos)
        (.finite .positive (2 ^ 52) (-52) onePos) = .finite .positive m e pos := by
  have target : Format.binary64.targetExponent
      (totalExponent m e - totalExponent (2 ^ 52) (-52)) = e - 1 := by
    simp only [Format.targetExponent, totalExponent, normal.log2_eq, Nat.log2_two_pow,
      Format.mantissaBits, Format.minExponent]
    norm_num
    omega
  have least : min (e - -52) (e - 1) = e - 1 := by omega
  have shift : (e - -52 - (e - 1)).toNat = 53 := by omega
  have quotient : m * 2 ^ 53 / 2 ^ 52 = m * 2 ^ 1 := by omega
  have nothing : m * 2 ^ 53 % 2 ^ 52 = 0 := by omega
  rw [UnpackedFloat.div, divCore, target, least, shift, Nat.shiftLeft_eq, quotient, nothing]
  dsimp only
  refine (roundWithAccuracy_exact normal (by omega)).trans ?_
  congr 1
  omega

/-- A number that is a double is its own double. -/
theorem unpack_toFloat_of_small {n : Nat} (positive : n ≠ 0) (small : n < 2 ^ 53) :
    (toFloat ⟨n, 0⟩).toModel.unpack = .finite .positive (n * 2 ^ (52 - n.log2))
      (n.log2 - 52 : Int) (Nat.pos_of_ne_zero (normal_shift positive small).ne_zero) := by
  have same : n.toUInt64.toNat = n := by
    show n % 2 ^ 64 = n
    omega
  have one : (getElem Float.exactlyRepresentablePowersOfTen 0 (by decide)).toModel.unpack =
      .finite .positive (2 ^ 52) (-52) (by decide) := by
    show Float.Model.unpack _ = _
    with_unfolding_all rfl
  have normal := normal_shift positive small
  have top : n.log2 ≤ 52 := Nat.lt_succ_iff.1 ((Nat.log2_lt positive).2 small)
  have shifted := @unpack_ofUInt64 n.toUInt64 (by rwa [same]) (by rwa [same])
  simp only [same] at shifted
  have fast : (toFloat ⟨n, 0⟩).toModel = Float.Model.pack (UnpackedFloat.div .binary64
      (Float.Model.ofUInt64 n.toUInt64).unpack
      (getElem Float.exactlyRepresentablePowersOfTen 0 (by decide)).toModel.unpack) := by
    unfold toFloat Float.ofScientific
    rw [dif_pos ⟨small, Nat.zero_le 22⟩]
    rfl
  rw [fast, shifted, one, div_one normal _ _ (by omega), unpack_pack normal _ (by omega),
    if_pos (by omega)]

theorem toInt_toFloat_of_small {n : Nat} (small : n < 2 ^ 53) (high : Int) :
    (toFloat ⟨n, 0⟩).toModel.unpack.toInt 0 high = n := by
  by_cases positive : n = 0
  · have zero : (toFloat ⟨0, 0⟩).toModel.unpack = .zero .positive := by
      show Float.Model.unpack _ = _
      with_unfolding_all rfl
    rw [positive, zero]
    rfl
  · have top : n.log2 ≤ 52 := Nat.lt_succ_iff.1 ((Nat.log2_lt positive).2 small)
    have exponents : ((n.log2 : Int) - 52).toNat = 0 ∧
        (-((n.log2 : Int) - 52)).toNat = 52 - n.log2 := by omega
    rw [unpack_toFloat_of_small positive small, toInt_finite, exponents.1, exponents.2,
      Nat.pow_zero, Nat.mul_one, Nat.mul_div_cancel _ (by simp)]

theorem mul_finite {s s' : Sign} {m m' : Nat} {e e' : Int} (pos : 0 < m) (pos' : 0 < m') :
    UnpackedFloat.mul .binary64 (.finite s m e pos) (.finite s' m' e' pos') =
      roundWithAccuracy .binary64 (s * s') (m * m') (e + e') .exact := rfl

/-- A larger number becomes a double that is not smaller than the doubles of those. -/
theorem le_toInt_toFloat {n : Nat} (large : 2 ^ 53 ≤ n) {high : Int} (bounded : high ≤ 2 ^ 53) :
    high ≤ (toFloat ⟨n, 0⟩).toModel.unpack.toInt 0 high := by
  have positive : n ≠ 0 := by omega
  have slow : (toFloat ⟨n, 0⟩).toModel = Float.Model.ofScientific n 0 := by
    unfold toFloat Float.ofScientific
    rw [dif_neg fun both => absurd both.1 (Nat.not_lt.2 large)]
    rfl
  have top : 53 ≤ n.log2 := (Nat.le_log2 positive).2 large
  have highest : (n <<< 53).log2 = 52 + (n.log2 + 1) := by
    obtain ⟨low, high⟩ := (Nat.log2_eq_iff positive).1 rfl
    rw [Nat.shiftLeft_eq, Nat.log2_eq_iff (Nat.mul_ne_zero positive (by simp)),
      show 52 + (n.log2 + 1) = n.log2 + 53 by omega,
      show n.log2 + 53 + 1 = n.log2 + 1 + 53 by omega,
      Nat.pow_add 2 n.log2, Nat.pow_add 2 (n.log2 + 1)]
    exact ⟨Nat.mul_le_mul_right _ low, Nat.mul_lt_mul_of_pos_right high (by simp)⟩
  have shifted : n <<< 53 ≠ 0 := by
    rw [Nat.shiftLeft_eq]
    exact Nat.mul_ne_zero positive (by simp)
  obtain ⟨m, e, pos, normal, least, rounded⟩ :=
    @exists_roundWithAccuracy (n <<< 53) (-53) _ shifted highest (by omega)
  have bits : Format.binary64.mantissaBits = 53 := rfl
  have plus : Sign.positive * Sign.positive = .positive := rfl
  have whole : UnpackedFloat.ofScientific .binary64 n 0 = .finite .positive m e pos := by
    rw [UnpackedFloat.ofScientific, dif_neg positive, if_neg (by norm_num),
      if_neg (by norm_num), if_pos (le_refl 0), mul_finite, bits, Int.toNat_zero, Nat.pow_zero,
      Nat.mul_one, Int.add_zero, plus]
    exact rounded
  rw [slow, Float.Model.ofScientific, whole, unpack_pack normal pos (by omega)]
  split
  · have up : (-e).toNat = 0 ∧ 1 ≤ e.toNat := by omega
    rw [toInt_finite, up.1, Nat.pow_zero, Nat.div_one]
    have big : 2 ^ 52 * 2 ^ 1 ≤ m * 2 ^ e.toNat :=
      Nat.mul_le_mul normal.1 (Nat.pow_le_pow_right (by decide) up.2)
    omega
  · exact le_refl high

/-- A numeral of digits is turned into its value, or into the largest word. -/
theorem toNat_toUInt32_toFloat (n : Nat) :
    (toFloat ⟨n, 0⟩).toUInt32.toNat = min n (2 ^ 32 - 1) := by
  show (UInt32.ofNatClamp ((toFloat ⟨n, 0⟩).toModel.unpack.toInt 0 (2 ^ 32 - 1)).toNat).toNat = _
  rw [toNat_ofNatClamp]
  by_cases small : n < 2 ^ 53
  · rw [toInt_toFloat_of_small small, Int.toNat_natCast]
  · have large := @le_toInt_toFloat n (by omega) (2 ^ 32 - 1) (by decide)
    omega

end HandHistory.Decimal
