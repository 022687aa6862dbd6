import RuleText.Decimal.Binary
import RuleText.Proofs.Decimal.Nearest

/-!
# Doubles with 53 digits

A double that is neither zero nor very small has a sign, 53 binary digits and an exponent
(`Normal`), and so it has an exact value. Its bits hold these parts and nothing else
(`Normal.unpack_toFloat`, `Normal.ofFloat_toFloat`). Doubles are compared by their exponents
and then by their digits, which is the order of the values (`Normal.compare_unpacked`).
-/

namespace RuleText.Decimal

open Float.Model Float.Model.UnpackedFloat

/-! ### Doubles with 53 digits -/

/-- A double with 53 binary digits, the first of which is not zero. -/
structure Normal where
  sign : Sign
  significand : Nat
  exponent : Int
  full : 2 ^ 52 ≤ significand
  short : significand < 2 ^ 53
  least : -1074 ≤ exponent
  greatest : exponent ≤ 971

/-- A number with a sign. -/
def signed : Sign → ℚ → ℚ
  | .negative, q => -q
  | .positive, q => q

theorem abs_signed (s : Sign) (q : ℚ) : |signed s q| = |q| := by
  cases s
  · exact abs_neg q
  · rfl

theorem signed_div (s s' : Sign) (p q : ℚ) :
    signed (s / s') (p / q) = signed s p / signed s' q := by
  cases s <;> cases s'
  · exact (neg_div_neg_eq p q).symm
  · exact (neg_div q p).symm
  · exact (div_neg p).symm
  · rfl

namespace Normal

variable (n : Normal)

theorem significand_pos : 0 < n.significand :=
  (by norm_num : 0 < 2 ^ 52).trans_le n.full

theorem unit_pos : (0 : ℚ) < 2 ^ n.exponent :=
  zpow_pos (by norm_num) _

/-- The value without its sign. -/
def magnitude : ℚ :=
  n.significand * 2 ^ n.exponent

/-- What the double stands for. -/
def value : ℚ :=
  signed n.sign n.magnitude

theorem magnitude_pos : 0 < n.magnitude :=
  mul_pos (Nat.cast_pos.mpr n.significand_pos) n.unit_pos

theorem abs_value : |n.value| = n.magnitude := by
  rw [value, abs_signed, abs_of_pos n.magnitude_pos]

/-- A double of 53 digits is between two powers of two next to each other. -/
theorem magnitude_bounds :
    2 ^ (n.exponent + 52) ≤ n.magnitude ∧ n.magnitude < 2 ^ (n.exponent + 53) := by
  constructor
  · refine (two_zpow_add n.exponent 52).trans_le (mul_le_mul_of_nonneg_right ?_ n.unit_pos.le)
    exact_mod_cast n.full
  · refine (mul_lt_mul_of_pos_right ?_ n.unit_pos).trans_eq (two_zpow_add n.exponent 53).symm
    exact_mod_cast n.short

/-- The exponent is known from the value. -/
theorem log_value : Int.log 2 |n.value| = n.exponent + 52 := by
  have pos := n.magnitude_pos
  obtain ⟨low, high⟩ := n.magnitude_bounds
  have low' : n.exponent + 52 ≤ Int.log 2 n.magnitude :=
    (Int.zpow_le_iff_le_log (by norm_num) pos).mp low
  have high' : Int.log 2 n.magnitude < n.exponent + 53 :=
    (Int.lt_zpow_iff_log_lt (by norm_num) pos).mp high
  rw [abs_value]
  omega

end Normal

/-! ### Bits -/

theorem unpackSign_packComponents {spec : Format} {sign : Sign}
    {exponent : BitVec spec.exponentBits} {mantissa : BitVec spec.mantissaBitsWithoutImplicit} :
    unpackSign (packComponents spec sign exponent mantissa) = sign.toBitVec := by
  ext i hi
  obtain rfl : i = 0 := by omega
  delta unpackSign packComponents
  simp [BitVec.getLsbD_append, BitVec.getElem_append]

theorem toNat_packComponents {sign : Sign} {exponent : BitVec 11} {mantissa : BitVec 52} :
    (packComponents Format.binary64 sign exponent mantissa).toNat =
      sign.toBitVec.toNat * 2 ^ 63 + exponent.toNat * 2 ^ 52 + mantissa.toNat := by
  have low := mantissa.isLt
  have high := exponent.isLt
  simp only [packComponents, BitVec.toNat_append]
  rw [← Nat.shiftLeft_add_eq_or_of_lt high, ← Nat.shiftLeft_add_eq_or_of_lt low]
  simp only [Nat.shiftLeft_eq]
  ring

theorem unpack_pack (f : UnpackedFloat) :
    (Float.Model.pack f).unpack =
      UnpackedFloat.unpack Format.binary64 (UnpackedFloat.pack Format.binary64 f) := rfl

theorem finite_eq_finite {sign sign' : Sign} {m m' : Nat} {e e' : Int} {pos : 0 < m}
    {pos' : 0 < m'} (signs : sign = sign') (digits : m = m') (exponents : e = e') :
    UnpackedFloat.finite sign m e pos = .finite sign' m' e' pos' := by
  subst signs digits exponents
  rfl

theorem unpack_packComponents {sign : Sign} {exponent : BitVec 11} {mantissa : BitVec 52}
    (some_exponent : exponent ≠ 0#11) (finite : exponent ≠ -1#11) :
    UnpackedFloat.unpack Format.binary64 (packComponents Format.binary64 sign exponent mantissa) =
      .finite sign (2 ^ 52 + mantissa.toNat) (exponent.toNat - 1075) (by omega) := by
  have digits : unpackMantissa (packComponents Format.binary64 sign exponent mantissa) = mantissa :=
    unpackMantissa_packComponents
  have stored : unpackExponent (packComponents Format.binary64 sign exponent mantissa) = exponent :=
    unpackExponent_packComponents
  have signs : Sign.ofBitVec sign.toBitVec = sign := by
    cases sign <;> rfl
  have significand : (1#1 ++ mantissa).toNat = 2 ^ 52 + mantissa.toNat := by
    rw [BitVec.toNat_append, ← Nat.shiftLeft_add_eq_or_of_lt mantissa.isLt, Nat.shiftLeft_eq,
      BitVec.toNat_one (by decide), one_mul]
  unfold UnpackedFloat.unpack
  dsimp only
  rw [if_neg (by rwa [stored]), if_neg (by rwa [stored])]
  refine finite_eq_finite ?_ ?_ ?_
  · rw [unpackSign_packComponents, signs]
  · rw [digits, significand]
  · rw [stored]
    rfl

namespace Normal

variable (n : Normal)

/-- The double with its parts told apart. -/
def unpacked : UnpackedFloat :=
  .finite n.sign n.significand n.exponent n.significand_pos

/-- The double itself. -/
def toFloat : Float :=
  .ofModel (.pack n.unpacked)

theorem log2_significand : n.significand.log2 = 52 := by
  rw [Nat.log2_eq_iff n.significand_pos.ne']
  exact ⟨n.full, n.short⟩

/-- The exponent as it is stored. -/
def storedExponent : Nat :=
  (n.exponent + 1075).toNat

theorem storedExponent_pos : 0 < n.storedExponent := by
  have := n.least
  unfold storedExponent
  omega

theorem storedExponent_lt : n.storedExponent < 2047 := by
  have := n.greatest
  unfold storedExponent
  omega

theorem storedExponent_eq : (n.storedExponent : Int) = n.exponent + 1075 := by
  have := n.least
  unfold storedExponent
  omega

theorem pack_unpacked :
    UnpackedFloat.pack Format.binary64 n.unpacked =
      packComponents Format.binary64 n.sign (BitVec.ofNat 11 n.storedExponent)
        (BitVec.ofNat 52 n.significand) := by
  have stored : (n.exponent + Format.binary64.exponentBias +
      Format.binary64.mantissaBitsWithoutImplicit).toNat = n.storedExponent := by
    simp only [Format.exponentBias, storedExponent]
    norm_num
    omega
  have := n.storedExponent_lt
  change (if 2 ^ 11 ≤ (n.exponent + Format.binary64.exponentBias +
    Format.binary64.mantissaBitsWithoutImplicit).toNat + 1 then _ else
      if n.significand.log2 + 1 = 53 then _ else _) = _
  rw [stored, n.log2_significand, if_neg (by omega)]
  exact if_pos rfl

theorem toNat_storedExponent : (BitVec.ofNat 11 n.storedExponent).toNat = n.storedExponent := by
  have := n.storedExponent_lt
  rw [BitVec.toNat_ofNat]
  exact Nat.mod_eq_of_lt (by omega)

theorem toNat_significand :
    (BitVec.ofNat 52 n.significand).toNat = n.significand - 2 ^ 52 := by
  have := n.full
  have := n.short
  rw [BitVec.toNat_ofNat]
  omega

/-- Packing loses nothing. -/
theorem unpack_toFloat : n.toFloat.toModel.unpack = n.unpacked := by
  have some_exponent : BitVec.ofNat 11 n.storedExponent ≠ 0#11 := by
    intro same
    have zero := congrArg BitVec.toNat same
    rw [toNat_storedExponent] at zero
    exact n.storedExponent_pos.ne' zero
  have finite : BitVec.ofNat 11 n.storedExponent ≠ -1#11 := by
    intro same
    have top := congrArg BitVec.toNat same
    rw [toNat_storedExponent] at top
    exact n.storedExponent_lt.ne top
  have significand : 2 ^ 52 + (BitVec.ofNat 52 n.significand).toNat = n.significand := by
    rw [toNat_significand, Nat.add_sub_of_le n.full]
  have exponent : (n.storedExponent : Int) - 1075 = n.exponent := by
    rw [storedExponent_eq, Int.add_sub_cancel]
  rw [toFloat, unpack_pack, pack_unpacked, unpack_packComponents some_exponent finite]
  exact finite_eq_finite rfl significand (by rw [toNat_storedExponent, exponent])

/-- The sign as a truth value. -/
def negative : Bool :=
  n.sign.toBitVec.toNat == 1

/-- The bits of the double are read as its parts. -/
theorem ofFloat_toFloat :
    Binary.ofFloat n.toFloat = .finite n.negative n.significand n.exponent := by
  have bits : n.toFloat.toBits.toNat =
      n.sign.toBitVec.toNat * 2 ^ 63 + n.storedExponent * 2 ^ 52 + (n.significand - 2 ^ 52) := by
    rw [← n.toNat_storedExponent, ← n.toNat_significand, ← toNat_packComponents, ← pack_unpacked]
    rfl
  have stored_pos := n.storedExponent_pos
  have stored_lt := n.storedExponent_lt
  have stored := n.storedExponent_eq
  have full := n.full
  have short := n.short
  have sign := n.sign.toBitVec.isLt
  have top : n.toFloat.toBits.toNat / (2048 * Binary.hiddenBit) = n.sign.toBitVec.toNat := by
    rw [bits, Binary.hiddenBit]
    omega
  have middle : n.toFloat.toBits.toNat / Binary.hiddenBit % 2048 = n.storedExponent := by
    rw [bits, Binary.hiddenBit]
    omega
  have low : n.toFloat.toBits.toNat % Binary.hiddenBit = n.significand - 2 ^ 52 := by
    rw [bits, Binary.hiddenBit]
    omega
  have whole : Binary.hiddenBit + (n.significand - 2 ^ 52) = n.significand := by
    rw [Binary.hiddenBit]
    omega
  have exponent : Int.ofNat n.storedExponent - 1075 = n.exponent := by
    rw [Int.ofNat_eq_natCast, stored, Int.add_sub_cancel]
  unfold Binary.ofFloat Binary.ofBits
  dsimp only
  rw [top, middle, low, if_neg stored_lt.ne, if_neg stored_pos.ne', whole, exponent]
  rfl

end Normal

/-! ### Rounding down -/

theorem bounds_fst (negative : Bool) (num : Nat) {den : Nat} (pos : 0 < den) :
    (Binary.bounds negative num den).1 =
      ⌊if negative then -(num / den : ℚ) else (num / den : ℚ)⌋ := by
  have pos' : (0 : Int) < den := Int.natCast_pos.mpr pos
  unfold Binary.bounds
  cases negative
  · have floor := Rat.floor_intCast_div_natCast num den
    rw [Int.cast_natCast] at floor
    simp only [Bool.false_eq_true, if_false, floor]
  · have floor := Rat.floor_intCast_div_natCast (-num) den
    rw [Int.cast_neg, Int.cast_natCast, neg_div] at floor
    simp only [if_true, floor]
    -- the opposite of a quotient rounded up is the opposite quotient rounded down
    have low := Int.mul_ediv_self_le (x := num + den - 1) pos'.ne'
    have high := Int.lt_mul_ediv_self_add (x := num + den - 1) pos'
    refine le_antisymm ?_ ?_
    · rw [Int.le_ediv_iff_mul_le pos', Int.neg_mul, Int.mul_comm]
      omega
    · rw [← Int.lt_add_one_iff, Int.ediv_lt_iff_lt_mul pos', Int.add_mul, Int.neg_mul, Int.mul_comm]
      omega

theorem floor_finite (negative : Bool) (m : Nat) (e : Int) :
    (Binary.finite negative m e).floor =
      Amount.saturate ⌊if negative then -(m * 2 ^ e : ℚ) else (m * 2 ^ e : ℚ)⌋ := by
  have fraction : ((Binary.fraction m e).1 / (Binary.fraction m e).2 : ℚ) = m * 2 ^ e ∧
      0 < (Binary.fraction m e).2 := by
    unfold Binary.fraction
    split_ifs with whole
    · obtain ⟨k, rfl⟩ := Int.eq_ofNat_of_zero_le whole
      simp
    · obtain ⟨k, rfl⟩ := Int.exists_eq_neg_ofNat (by omega : e ≤ 0)
      simp [div_eq_mul_inv]
  rw [Binary.floor, bounds_fst _ _ fraction.2, fraction.1]

/-! ### Comparing -/

namespace Normal

variable {a b : Normal}

theorem magnitude_lt_of_exponent_lt (h : a.exponent < b.exponent) : a.magnitude < b.magnitude :=
  calc a.magnitude < 2 ^ (a.exponent + 53) := a.magnitude_bounds.2
    _ ≤ 2 ^ (b.exponent + 52) := zpow_le_zpow_right₀ (by norm_num) (by omega)
    _ ≤ b.magnitude := b.magnitude_bounds.1

/-- Magnitudes are compared by their exponents, and only where these are the same by their
digits. -/
theorem magnitude_lt_iff :
    a.magnitude < b.magnitude ↔
      a.exponent < b.exponent ∨ a.exponent = b.exponent ∧ a.significand < b.significand := by
  rcases lt_trichotomy a.exponent b.exponent with below | same | above
  · simp [magnitude_lt_of_exponent_lt below, below]
  · rw [magnitude, magnitude, same, mul_lt_mul_iff_left₀ b.unit_pos, Nat.cast_lt]
    simp
  · have not_lt : ¬ a.magnitude < b.magnitude := (magnitude_lt_of_exponent_lt above).not_gt
    simp [not_lt, above.not_gt, above.ne']

theorem compare_eq_lt :
    (compare a.exponent b.exponent).then (compare a.significand b.significand) = .lt ↔
      a.magnitude < b.magnitude := by
  rw [magnitude_lt_iff, Ordering.then_eq_lt, compare_lt_iff_lt, compare_eq_iff_eq,
    compare_lt_iff_lt]

theorem compare_eq_gt :
    (compare a.exponent b.exponent).then (compare a.significand b.significand) = .gt ↔
      b.magnitude < a.magnitude := by
  rw [magnitude_lt_iff, Ordering.then_eq_gt, compare_gt_iff_gt, compare_eq_iff_eq,
    compare_gt_iff_gt, eq_comm (a := a.exponent)]

/-- Comparing doubles compares their values. -/
theorem compare_unpacked :
    a.unpacked.compare b.unpacked = some .lt ↔ a.value < b.value := by
  have a_pos := a.magnitude_pos
  have b_pos := b.magnitude_pos
  show _ ↔ signed a.sign a.magnitude < signed b.sign b.magnitude
  unfold unpacked
  cases a.sign <;> cases b.sign
  · refine Iff.trans ?_ neg_lt_neg_iff.symm
    rw [← compare_eq_gt, ← Ordering.swap_eq_lt]
    exact Option.some_inj
  · exact iff_of_true rfl (by unfold signed; linarith)
  · exact iff_of_false (by rintro ⟨⟩) (by unfold signed; linarith)
  · refine Iff.trans ?_ compare_eq_lt
    exact Option.some_inj

end Normal

end RuleText.Decimal
