import Mathlib.Tactic.FieldSimp
import RuleText.Proofs.Decimal.Normal

/-!
# Rounding to doubles

An operation on doubles gives a significand that may have more than 53 digits, with two bits
for all that was cut off behind it (`Shows`). Cutting it off after 53 digits and rounding by
these bits comes to the nearest double, as long as the exponent stays in its range
(`exists_round`). From this the values of quotients and of converted integers follow.
-/

namespace RuleText.Decimal

open Float.Model Float.Model.UnpackedFloat

/-! ### Digits that were cut off -/

/-- A significand with its two extra bits shows a number: the significand is the integral
part, and the bits tell whether the rest is zero, less than one half, one half or more. -/
structure Shows (em : ExtendedMantissa) (z : ℚ) : Prop where
  floor : ⌊z⌋ = em.mantissa
  round : em.roundBit = true ↔ 1 ≤ 2 * Int.fract z
  sticky : em.stickyBit = true ↔ 2 * Int.fract z ≠ 0 ∧ 2 * Int.fract z ≠ 1

section Digits

variable {em : ExtendedMantissa} {z : ℚ}

theorem shows_natCast (m : Nat) : Shows (.ofMantissaAndAccuracy m .exact) m where
  floor := Int.floor_natCast m
  round := by simp [ExtendedMantissa.ofMantissaAndAccuracy]
  sticky := by simp [ExtendedMantissa.ofMantissaAndAccuracy]

/-- Cutting off a digit halves the number. -/
theorem Shows.shiftRightOne (shows : Shows em z) : Shows em.shiftRightOne (z / 2) := by
  have floor : ⌊z / 2⌋ = ((em.mantissa / 2 : Nat) : Int) := by
    have half := Int.floor_div_natCast z 2
    rw [shows.floor] at half
    exact_mod_cast half
  have fract : 2 * Int.fract (z / 2) = (em.mantissa % 2 : Nat) + Int.fract z := by
    have digits : (2 : ℚ) * (em.mantissa / 2 : Nat) + (em.mantissa % 2 : Nat) = em.mantissa := by
      rw [← Nat.cast_ofNat, ← Nat.cast_mul, ← Nat.cast_add, Nat.div_add_mod]
    rw [Int.fract, floor, Int.fract, shows.floor, Int.cast_natCast, Int.cast_natCast]
    linarith
  have low := Int.fract_nonneg z
  have high := Int.fract_lt_one z
  have more : (em.roundBit || em.stickyBit) = true ↔ Int.fract z ≠ 0 := by
    rw [Bool.or_eq_true, shows.round, shows.sticky]
    constructor
    · rintro (half | ⟨some, -⟩) zero
      · rw [zero] at half
        norm_num at half
      · exact some (by rw [zero, mul_zero])
    · intro some
      by_cases half : 1 ≤ 2 * Int.fract z
      · exact .inl half
      · exact .inr ⟨by simpa using some, by intro one; exact half one.ge⟩
  refine ⟨floor, ?_, ?_⟩
  · rw [fract]
    rcases Nat.mod_two_eq_zero_or_one em.mantissa with even | odd
    · simp only [ExtendedMantissa.shiftRightOne, even]
      simpa using high
    · simp [ExtendedMantissa.shiftRightOne, odd, low]
  · rw [fract]
    refine more.trans ?_
    rcases Nat.mod_two_eq_zero_or_one em.mantissa with even | odd
    · rw [even]
      simp [high.ne]
    · rw [odd]
      constructor
      · intro some
        exact ⟨by push_cast; linarith, by simpa using some⟩
      · rintro ⟨-, some⟩ zero
        exact some (by rw [zero]; norm_num)

theorem Shows.shiftRight (shows : Shows em z) (k : Nat) : Shows (em >>> k) (z / 2 ^ k) := by
  induction k with
  | zero =>
    rw [pow_zero, div_one]
    exact shows
  | succ k ih =>
    rw [pow_succ, ← div_div]
    exact ih.shiftRightOne

/-- The two bits suffice to round to the nearest integer. -/
theorem Shows.roundedMantissa (shows : Shows em z) : (em.roundedMantissa : Int) = halfEven z := by
  obtain ⟨mantissa, round, sticky⟩ := em
  have floor := shows.floor
  have rounds := shows.round
  have sticks := shows.sticky
  dsimp only at floor rounds sticks
  unfold halfEven
  rw [floor]
  cases round
  · have below : 2 * Int.fract z < 1 := by simpa using rounds
    rw [if_pos below]
    cases sticky <;> rfl
  · have half : 1 ≤ 2 * Int.fract z := rounds.mp rfl
    rw [if_neg half.not_gt]
    cases sticky
    · have tie : 2 * Int.fract z = 1 := by
        by_contra other
        exact Bool.false_ne_true (sticks.mpr ⟨(zero_lt_one.trans_le half).ne', other⟩)
      rw [if_neg tie.le.not_gt]
      exact Int.natCast_add mantissa (mantissa % 2)
    · have above : 1 < 2 * Int.fract z := lt_of_le_of_ne half (Ne.symm (sticks.mp rfl).2)
      rw [if_pos above]
      rfl

end Digits

/-! ### Rounding to 53 digits -/

section Rounding

variable {m k : Nat} {e : Int} {acc : Accuracy} {z : ℚ}

theorem targetExponent_eq (low : -1074 ≤ m.log2 + e - 52) :
    Format.binary64.targetExponent (totalExponent m e) = m.log2 + e - 52 := by
  change max ((m.log2 + 1 + e : Int) - 53) (-1074) = m.log2 + e - 52
  omega

/-- All digits but the first 53 are cut off. -/
theorem shiftToTargetExponent_eq (digits : m.log2 = 52 + k) (low : -1074 ≤ e + k) :
    shiftToTargetExponent Format.binary64 m e acc =
      (ExtendedMantissa.ofMantissaAndAccuracy m acc >>> k, e + k) := by
  have shift : (m.log2 + e - 52 - e).toNat = k := by omega
  rw [shiftToTargetExponent, targetExponent_eq (by omega), shiftToExponent, shift]

theorem ofMantissaAndAccuracy_mantissa :
    (ExtendedMantissa.ofMantissaAndAccuracy m acc).mantissa = m := by
  cases acc with
  | exact => rfl
  | inexact order => cases order <;> rfl

theorem bounds_of_shows (shows : Shows (.ofMantissaAndAccuracy m acc) z)
    (digits : m.log2 = 52 + k) : 2 ^ 52 ≤ z / 2 ^ k ∧ z / 2 ^ k < 2 ^ 53 := by
  have some_m : m ≠ 0 := by
    rintro rfl
    rw [Nat.log2_zero] at digits
    omega
  obtain ⟨full, short⟩ := (Nat.log2_eq_iff some_m).mp digits
  have floor : ⌊z⌋ = m := by rw [shows.floor, ofMantissaAndAccuracy_mantissa]
  obtain ⟨lower, upper⟩ := Int.floor_eq_iff.mp floor
  have full' : (2 ^ (52 + k) : ℚ) ≤ m := by exact_mod_cast full
  have short' : (m + 1 : ℚ) ≤ 2 ^ (53 + k) := by
    rw [show 53 + k = 52 + k + 1 by omega]
    exact_mod_cast short
  rw [Int.cast_natCast] at lower upper
  rw [le_div_iff₀ (by positivity), div_lt_iff₀ (by positivity), ← pow_add, ← pow_add]
  exact ⟨full'.trans lower, upper.trans_le short'⟩

/-- Cut off after 53 digits and rounded by the rest, a number becomes the nearest one. -/
theorem nearest_of_shows (shows : Shows (.ofMantissaAndAccuracy m acc) z)
    (digits : m.log2 = 52 + k) :
    nearest (z * 2 ^ e) =
      (ExtendedMantissa.ofMantissaAndAccuracy m acc >>> k).roundedMantissa * 2 ^ (e + k) := by
  obtain ⟨full, short⟩ := bounds_of_shows shows digits
  have rounded := (shows.shiftRight k).roundedMantissa
  have unit_pos : (0 : ℚ) < 2 ^ (e + k) := zpow_pos (by norm_num) _
  have units : z * 2 ^ e = z / 2 ^ k * 2 ^ (e + k) := by
    rw [zpow_add₀ (by norm_num), zpow_natCast]
    field_simp
  have unit : ulp (z * 2 ^ e) = 2 ^ (e + k) := by
    rw [units]
    have pos : 0 < z / 2 ^ k * 2 ^ (e + k) := mul_pos (by linarith) unit_pos
    apply ulp_eq
    · rw [abs_of_pos pos]
      exact (two_zpow_add (e + k) 52).trans_le (mul_le_mul_of_nonneg_right full unit_pos.le)
    · rw [abs_of_pos pos]
      exact (mul_lt_mul_of_pos_right short unit_pos).trans_eq (two_zpow_add (e + k) 53).symm
  rw [nearest, unit, units, mul_div_cancel_right₀ _ unit_pos.ne', ← rounded, Int.cast_natCast]

theorem roundWithAccuracy_eq {spec : Format} {s : Sign} {em em' : ExtendedMantissa} {e' e'' : Int}
    (first : shiftToTargetExponent spec m e acc = (em, e'))
    (second : shiftToTargetExponent spec em.roundedMantissa e' .exact = (em', e''))
    (pos : 0 < em'.mantissa) :
    roundWithAccuracy spec s m e acc = .finite s em'.mantissa e'' pos := by
  rw [roundWithAccuracy, first]
  dsimp only
  rw [second]
  exact dif_neg pos.ne'

theorem nearest_signed (s : Sign) (q : ℚ) : nearest (signed s q) = signed s (nearest q) := by
  cases s
  · exact nearest_neg q
  · rfl

/-- Rounding comes to the nearest double. -/
theorem exists_round (s : Sign) (shows : Shows (.ofMantissaAndAccuracy m acc) z)
    (digits : m.log2 = 52 + k) (low : -1074 ≤ e + k) (high : e + k ≤ 970) :
    ∃ n : Normal, roundWithAccuracy Format.binary64 s m e acc = n.unpacked ∧
      n.value = nearest (signed s (z * 2 ^ e)) := by
  obtain ⟨full, short⟩ := bounds_of_shows shows digits
  have rounded := (shows.shiftRight k).roundedMantissa
  have nearest_eq := nearest_of_shows (e := e) shows digits
  have first : shiftToTargetExponent Format.binary64 m e acc = _ :=
    shiftToTargetExponent_eq digits low
  generalize ExtendedMantissa.ofMantissaAndAccuracy m acc >>> k = em at rounded nearest_eq first
  have at_least : 2 ^ 52 ≤ em.roundedMantissa := by
    have := le_halfEven (x := z / 2 ^ k) (n := 2 ^ 52) (by exact_mod_cast full)
    omega
  have at_most : em.roundedMantissa ≤ 2 ^ 53 := by
    have := halfEven_le (x := z / 2 ^ k) (n := 2 ^ 53) (by exact_mod_cast short.le)
    omega
  rw [nearest_signed, nearest_eq]
  rcases at_most.lt_or_eq with no_carry | carry
  · have log : em.roundedMantissa.log2 = 52 + 0 :=
      (Nat.log2_eq_iff (by omega)).mpr ⟨at_least, no_carry⟩
    have second : shiftToTargetExponent Format.binary64 em.roundedMantissa (e + k) .exact =
        (⟨em.roundedMantissa, false, false⟩, e + k) := by
      rw [shiftToTargetExponent_eq log (by omega), Nat.cast_zero, add_zero]
      rfl
    exact ⟨⟨s, em.roundedMantissa, e + k, at_least, no_carry, low, by omega⟩,
      roundWithAccuracy_eq first second _, rfl⟩
  · -- a 54th digit appears, and it is the only one that is not zero
    have log : em.roundedMantissa.log2 = 52 + 1 := by
      rw [carry, Nat.log2_two_pow]
    have half : em.roundedMantissa / 2 = 2 ^ 52 := by omega
    have second : shiftToTargetExponent Format.binary64 em.roundedMantissa (e + k) .exact =
        (⟨em.roundedMantissa / 2, em.roundedMantissa % 2 != 0, false⟩, e + k + 1) := by
      rw [shiftToTargetExponent_eq log (by omega), Nat.cast_one]
      rfl
    refine ⟨⟨s, em.roundedMantissa / 2, e + k + 1, half.ge, by omega, by omega, by omega⟩,
      roundWithAccuracy_eq first second _, ?_⟩
    show signed s ((em.roundedMantissa / 2 : Nat) * 2 ^ (e + k + 1 : Int)) = _
    rw [half, carry, zpow_add₀ (by norm_num) (e + k : Int)]
    congr 1
    push_cast
    ring

end Rounding

/-! ### Quotients -/

/-- A quotient with its remainder shows the exact quotient. -/
theorem shows_div (num : Nat) {den : Nat} (pos : 0 < den) :
    Shows (.ofMantissaAndAccuracy (num / den) (accuracyOfFraction (num % den) den))
      (num / den) := by
  have pos' : (0 : ℚ) < den := Nat.cast_pos.mpr pos
  have floor : ⌊(num / den : ℚ)⌋ = (num / den : Nat) := Rat.floor_intCast_div_natCast num den
  have fract : 2 * Int.fract (num / den : ℚ) = (2 * (num % den) : Nat) / den := by
    have whole : (den * (num / den : Nat) + (num % den : Nat) : ℚ) = num := by
      rw [← Nat.cast_mul, ← Nat.cast_add, Nat.div_add_mod]
    rw [Int.fract, floor, Int.cast_natCast, eq_div_iff pos'.ne', mul_assoc, sub_mul,
      div_mul_cancel₀ _ pos'.ne', Nat.cast_mul]
    push_cast at whole ⊢
    linarith
  have ge_one : 1 ≤ 2 * Int.fract (num / den : ℚ) ↔ den ≤ 2 * (num % den) := by
    rw [fract, le_div_iff₀ pos', one_mul, Nat.cast_le]
  have eq_one : 2 * Int.fract (num / den : ℚ) = 1 ↔ 2 * (num % den) = den := by
    rw [fract, div_eq_one_iff_eq pos'.ne', Nat.cast_inj]
  have eq_zero : 2 * Int.fract (num / den : ℚ) = 0 ↔ num % den = 0 := by
    rw [fract, div_eq_zero_iff, Nat.cast_eq_zero]
    simp [pos.ne']
  unfold accuracyOfFraction
  by_cases exact : num % den = 0
  · rw [if_pos exact]
    refine ⟨floor, ?_, ?_⟩
    · simp [ExtendedMantissa.ofMantissaAndAccuracy, ge_one, exact, pos.ne']
    · simp [ExtendedMantissa.ofMantissaAndAccuracy, eq_zero.mpr exact]
  · rw [if_neg exact]
    have not_zero := mt eq_zero.mp exact
    rcases lt_trichotomy (2 * (num % den)) den with below | same | above
    · rw [compare_lt_iff_lt.mpr below]
      refine ⟨floor, ?_, iff_of_true rfl ⟨not_zero, mt eq_one.mp below.ne⟩⟩
      simp [ExtendedMantissa.ofMantissaAndAccuracy, ge_one, below]
    · rw [compare_eq_iff_eq.mpr same]
      refine ⟨floor, iff_of_true rfl (ge_one.mpr same.ge), ?_⟩
      simp [ExtendedMantissa.ofMantissaAndAccuracy, eq_one.mpr same]
    · rw [compare_gt_iff_gt.mpr above]
      exact ⟨floor, iff_of_true rfl (ge_one.mpr above.le),
        iff_of_true rfl ⟨not_zero, mt eq_one.mp above.ne'⟩⟩

namespace Normal

variable {a b : Normal}

theorem divCore_unpacked (low : -1000 ≤ a.exponent - b.exponent) :
    divCore Format.binary64 a.significand a.exponent b.significand b.exponent =
      (a.significand * 2 ^ 53 / b.significand, a.exponent - b.exponent - 53,
        accuracyOfFraction (a.significand * 2 ^ 53 % b.significand) b.significand) := by
  have target : min (a.exponent - b.exponent) (Format.binary64.targetExponent
      (totalExponent a.significand a.exponent - totalExponent b.significand b.exponent)) =
      a.exponent - b.exponent - 53 := by
    change min (a.exponent - b.exponent) (max ((a.significand.log2 + 1 + a.exponent -
      (b.significand.log2 + 1 + b.exponent) : Int) - 53) (-1074)) = a.exponent - b.exponent - 53
    rw [log2_significand, log2_significand]
    omega
  have shift : (a.exponent - b.exponent - (a.exponent - b.exponent - 53)).toNat = 53 := by
    omega
  simp only [divCore, target, shift, Nat.shiftLeft_eq]

theorem exists_digits_div :
    ∃ k, (a.significand * 2 ^ 53 / b.significand).log2 = 52 + k ∧ k ≤ 1 := by
  have pos := b.significand_pos
  have full := a.full
  have short := a.short
  have full' := b.full
  have short' := b.short
  have low : 2 ^ 52 ≤ a.significand * 2 ^ 53 / b.significand := by
    rw [Nat.le_div_iff_mul_le pos]
    omega
  have high : a.significand * 2 ^ 53 / b.significand < 2 ^ 54 := by
    rw [Nat.div_lt_iff_lt_mul pos]
    omega
  have some_quotient : a.significand * 2 ^ 53 / b.significand ≠ 0 := by omega
  have low' := (Nat.le_log2 some_quotient).mpr low
  have high' := (Nat.log2_lt some_quotient).mpr high
  exact ⟨_, (Nat.add_sub_of_le low').symm, by omega⟩

/-- Division comes to the nearest double. -/
theorem exists_div (low : -1000 ≤ a.exponent - b.exponent)
    (high : a.exponent - b.exponent ≤ 900) :
    ∃ n : Normal, a.toFloat / b.toFloat = n.toFloat ∧ n.value = nearest (a.value / b.value) := by
  obtain ⟨k, digits, short⟩ := exists_digits_div (a := a) (b := b)
  have shows := shows_div (a.significand * 2 ^ 53) b.significand_pos
  obtain ⟨n, rounded, value⟩ := exists_round (a.sign / b.sign) shows digits
    (e := a.exponent - b.exponent - 53) (by omega) (by omega)
  have divided : a.unpacked.div Format.binary64 b.unpacked = n.unpacked := by
    change (match divCore Format.binary64 a.significand a.exponent b.significand b.exponent with
      | (m, e, acc) => roundWithAccuracy Format.binary64 (a.sign / b.sign) m e acc) = _
    rw [divCore_unpacked low, ← rounded]
  have quotient : (((a.significand * 2 ^ 53 : Nat) / b.significand : ℚ) *
      2 ^ (a.exponent - b.exponent - 53)) = a.magnitude / b.magnitude := by
    have pos : (0 : ℚ) < b.significand := Nat.cast_pos.mpr b.significand_pos
    rw [magnitude, magnitude, zpow_sub₀ (by norm_num), zpow_sub₀ (by norm_num)]
    push_cast
    field_simp
  refine ⟨n, ?_, ?_⟩
  · show Float.ofModel (.pack (a.toFloat.toModel.unpack.div Format.binary64
      b.toFloat.toModel.unpack)) = _
    rw [unpack_toFloat, unpack_toFloat, divided, toFloat]
  · rw [value, quotient, signed_div]
    rfl

end Normal

/-! ### Conversions from integers -/

section Integers

/-- The double of value one. -/
def Normal.one : Normal where
  sign := .positive
  significand := 2 ^ 52
  exponent := -52
  full := le_rfl
  short := by norm_num
  least := by norm_num
  greatest := by norm_num

variable {n : Nat}

theorem log2_mul_two_pow (pos : 0 < n) (d : Nat) : (n * 2 ^ d).log2 = n.log2 + d := by
  induction d with
  | zero => rw [pow_zero, mul_one, add_zero]
  | succ d ih =>
    rw [pow_succ', mul_left_comm, Nat.log2_two_mul (by positivity), ih, add_assoc]

/-- Numbers with at most 53 digits are extended to 53 digits. -/
theorem exists_ofUInt64 (pos : 0 < n) (short : n < 2 ^ 53) :
    ∃ a : Normal, n.toUInt64.toFloat = a.toFloat ∧ a.value = nearest n := by
  have log : n.log2 < 53 := (Nat.log2_lt pos.ne').mpr short
  have digits : (n * 2 ^ (52 - n.log2)).log2 = 52 + 0 := by
    rw [log2_mul_two_pow pos]
    omega
  obtain ⟨a, rounded, value⟩ := exists_round .positive (shows_natCast _) digits
    (e := -(52 - n.log2 : Nat)) (by omega) (by omega)
  have extended : UnpackedFloat.round Format.binary64 .positive n 0 = a.unpacked := by
    have shift : ((0 : Int) - (n.log2 + 0 - 52)).toNat = 52 - n.log2 := by omega
    rw [UnpackedFloat.round, targetExponent_eq (by omega), decreaseExponent, shift,
      Nat.shiftLeft_eq, zero_sub]
    exact rounded
  refine ⟨a, ?_, ?_⟩
  · have same : n.toUInt64.toNat = n := Nat.mod_eq_of_lt (by omega)
    have order : compare (n : Int) 0 = .gt := compare_gt_iff_gt.mpr (by omega)
    show Float.ofModel (.pack (UnpackedFloat.normalize Format.binary64 (n.toUInt64.toNat : Int) 0
      .positive)) = _
    rw [same, UnpackedFloat.normalize, order]
    exact congrArg (fun f => Float.ofModel (.pack f)) extended
  · rw [value, Nat.cast_mul, Nat.cast_pow, mul_assoc, zpow_neg, zpow_natCast, Nat.cast_ofNat,
      mul_inv_cancel₀ (by positivity), mul_one]
    rfl

theorem ofScientific_eq (pos : 0 < n) :
    UnpackedFloat.ofScientific Format.binary64 n 0 =
      roundWithAccuracy Format.binary64 .positive (n * 2 ^ 53) (-53) .exact := by
  have not_small : ¬ (0 : Int) < -(2 ^ Format.binary64.exponentBits + n.log2) := by
    simp only
    omega
  rw [UnpackedFloat.ofScientific, dif_neg pos.ne', if_neg (by decide), if_neg not_small,
    if_pos le_rfl]
  change roundWithAccuracy Format.binary64 .positive (n <<< 53 * 1) (-53) .exact = _
  rw [Nat.shiftLeft_eq, mul_one]

/-- A number of more than 53 digits is cut off and rounded. -/
theorem ofNat_of_long (long : 2 ^ 53 ≤ n) :
    Float.ofNat n =
      .ofModel (.pack (roundWithAccuracy Format.binary64 .positive (n * 2 ^ 53) (-53) .exact)) := by
  show Float.ofScientific n false 0 = _
  rw [Float.ofScientific, dif_neg (by omega)]
  exact congrArg (fun f => Float.ofModel (.pack f)) (ofScientific_eq (by omega))

/-- A number of at most 53 digits is extended and then multiplied by one. -/
theorem ofNat_of_short (short : n < 2 ^ 53) :
    Float.ofNat n = n.toUInt64.toFloat * Normal.one.toFloat := by
  have power : Float.exactlyRepresentablePowersOfTen[0] = Normal.one.toFloat := by decide +kernel
  show Float.ofScientific n false 0 = _
  rw [Float.ofScientific, dif_pos ⟨short, by norm_num⟩, ← power]
  rfl

theorem exists_mul_one (a : Normal) (high : a.exponent ≤ 970) :
    ∃ b : Normal, a.toFloat * Normal.one.toFloat = b.toFloat ∧ b.value = nearest a.value := by
  have low := a.least
  have digits : (a.significand * 2 ^ 52).log2 = 52 + 52 := by
    rw [log2_mul_two_pow a.significand_pos, a.log2_significand]
  obtain ⟨b, rounded, value⟩ := exists_round (a.sign * .positive) (shows_natCast _) digits
    (e := a.exponent + -52) (by omega) (by omega)
  have same : signed (a.sign * .positive) ((a.significand * 2 ^ 52 : Nat) *
      2 ^ (a.exponent + -52)) = a.value := by
    have signs : a.sign * .positive = a.sign := by
      cases a.sign <;> rfl
    rw [zpow_add₀ (by norm_num), signs, Normal.value, Normal.magnitude]
    congr 1
    push_cast
    field_simp
    norm_num
  refine ⟨b, ?_, by rw [value, same]⟩
  show Float.ofModel (.pack (a.toFloat.toModel.unpack.mul Format.binary64
    Normal.one.toFloat.toModel.unpack)) = _
  rw [a.unpack_toFloat, Normal.one.unpack_toFloat, Normal.toFloat, ← rounded]
  rfl

/-- Converting a positive number of 64 bits comes to the nearest double. -/
theorem exists_ofNat (pos : 0 < n) (fits : n < 2 ^ 64) :
    ∃ a : Normal, Float.ofNat n = a.toFloat ∧ a.value = nearest n := by
  rcases lt_or_ge n (2 ^ 53) with short | long
  · have kept : nearest n = n :=
      nearest_intCast (n := n) (by rw [Nat.abs_cast]; exact_mod_cast short.le)
    obtain ⟨a, converted, value⟩ := exists_ofUInt64 pos short
    have exponent := a.log_value
    rw [value, kept, Nat.abs_cast, Int.log_natCast] at exponent
    have log : Nat.log 2 n < 53 := Nat.log_lt_of_lt_pow pos.ne' short
    obtain ⟨b, multiplied, value'⟩ := exists_mul_one a (by omega)
    exact ⟨b, by rw [ofNat_of_short short, converted, multiplied],
      by rw [value', value, kept, kept]⟩
  · have log : 53 ≤ n.log2 := (Nat.le_log2 pos.ne').mpr long
    have log' : n.log2 < 64 := (Nat.log2_lt pos.ne').mpr fits
    have digits : (n * 2 ^ 53).log2 = 52 + (n.log2 + 1) := by
      rw [log2_mul_two_pow pos]
      omega
    obtain ⟨a, rounded, value⟩ := exists_round .positive (shows_natCast _) digits
      (e := -53) (by omega) (by omega)
    refine ⟨a, by rw [ofNat_of_long long, rounded, Normal.toFloat], ?_⟩
    rw [value, Nat.cast_mul, Nat.cast_pow, mul_assoc]
    norm_num
    rfl

end Integers

end RuleText.Decimal
