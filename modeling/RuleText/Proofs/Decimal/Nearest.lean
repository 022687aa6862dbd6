import Mathlib.Data.Int.Log
import Mathlib.Data.Rat.Floor
import Mathlib.Tactic.FieldSimp
import Mathlib.Tactic.Linarith
import Mathlib.Tactic.Ring

/-!
# The nearest numbers with 53 digits

An operation on doubles gives the exact result, rounded to 53 binary digits, and of two
numbers that are equally near the one whose last digit is even. Here the range of exponents is
not bounded, so this rounding is a function on rational numbers (`nearest`). It is monotone
and odd and keeps all integers up to 2⁵³.

Where a quotient of integers is no integer, it is far enough from the next integer above that
rounding does not get there, as long as the dividend is less than 2⁵³ (`floor_nearest_div`).
-/

namespace RuleText.Decimal

/-! ### Rounding to an integer -/

/-- The nearest integer; of two that are equally near, the even one. -/
def halfEven (x : ℚ) : ℤ :=
  if 2 * Int.fract x < 1 then ⌊x⌋
  else if 1 < 2 * Int.fract x then ⌊x⌋ + 1
  else ⌊x⌋ + ⌊x⌋ % 2

section HalfEven

variable {x y : ℚ}

@[simp] theorem halfEven_intCast (n : ℤ) : halfEven n = n := by
  simp [halfEven]

theorem floor_le_halfEven (x : ℚ) : ⌊x⌋ ≤ halfEven x := by
  unfold halfEven
  split_ifs <;> omega

theorem halfEven_le_floor_add_one (x : ℚ) : halfEven x ≤ ⌊x⌋ + 1 := by
  unfold halfEven
  split_ifs <;> omega

theorem halfEven_mono (h : x ≤ y) : halfEven x ≤ halfEven y := by
  rcases (Int.floor_mono h).lt_or_eq with below | same
  · calc halfEven x ≤ ⌊x⌋ + 1 := halfEven_le_floor_add_one x
      _ ≤ ⌊y⌋ := below
      _ ≤ halfEven y := floor_le_halfEven y
  · have fracts : Int.fract x ≤ Int.fract y := by
      rw [Int.fract, Int.fract, same]
      linarith
    unfold halfEven
    rw [same]
    split_ifs <;> first | omega | linarith

theorem le_halfEven {n : ℤ} (h : n ≤ x) : n ≤ halfEven x := by
  have mono := halfEven_mono h
  rwa [halfEven_intCast] at mono

theorem halfEven_le {n : ℤ} (h : x ≤ n) : halfEven x ≤ n := by
  have mono := halfEven_mono h
  rwa [halfEven_intCast] at mono

theorem halfEven_neg (x : ℚ) : halfEven (-x) = -halfEven x := by
  by_cases whole : Int.fract x = 0
  · have integer : x = ⌊x⌋ := by
      linarith [Int.floor_add_fract x]
    rw [integer, ← Int.cast_neg, halfEven_intCast, halfEven_intCast]
  · have fract_neg : Int.fract (-x) = 1 - Int.fract x := Int.fract_neg whole
    have floor_neg : ⌊-x⌋ = -⌊x⌋ - 1 := by
      have sum := Int.floor_add_fract x
      have sum' := Int.floor_add_fract (-x)
      rw [fract_neg] at sum'
      have : (⌊-x⌋ : ℚ) = ((-⌊x⌋ - 1 : ℤ) : ℚ) := by
        push_cast
        linarith
      exact_mod_cast this
    unfold halfEven
    rw [fract_neg, floor_neg]
    split_ifs <;> first | omega | linarith

theorem abs_halfEven_sub_le (x : ℚ) : |halfEven x - x| ≤ 1 / 2 := by
  have sum := Int.floor_add_fract x
  have low := Int.fract_nonneg x
  have high := Int.fract_lt_one x
  unfold halfEven
  rw [abs_le]
  split_ifs with below above
  · constructor <;> linarith
  · push_cast
    constructor <;> linarith
  · rcases Int.emod_two_eq_zero_or_one ⌊x⌋ with even | odd
    · rw [even]
      push_cast
      constructor <;> linarith
    · rw [odd]
      push_cast
      constructor <;> linarith

end HalfEven

/-! ### Rounding to 53 digits -/

theorem two_zpow_add (e : ℤ) (d : ℕ) : (2 : ℚ) ^ (e + d) = 2 ^ d * 2 ^ e := by
  rw [zpow_add₀ (by norm_num), zpow_natCast, mul_comm]

/-- The unit in the last of 53 binary digits. -/
def ulp (x : ℚ) : ℚ :=
  2 ^ (Int.log 2 |x| - 52)

/-- The nearest number with 53 binary digits; of two that are equally near, the one whose last
digit is even. -/
def nearest (x : ℚ) : ℚ :=
  halfEven (x / ulp x) * ulp x

section Nearest

variable {x y : ℚ}

theorem ulp_pos (x : ℚ) : 0 < ulp x :=
  zpow_pos (by norm_num) _

theorem ulp_neg (x : ℚ) : ulp (-x) = ulp x := by
  rw [ulp, abs_neg, ulp]

theorem ulp_eq {k : ℤ} (low : 2 ^ (k + 52) ≤ |x|) (high : |x| < 2 ^ (k + 53)) : ulp x = 2 ^ k := by
  have pos : 0 < |x| := (zpow_pos (by norm_num) _).trans_le low
  have log_ge : k + 52 ≤ Int.log 2 |x| := (Int.zpow_le_iff_le_log (by norm_num) pos).mp low
  have log_lt : Int.log 2 |x| < k + 53 := (Int.lt_zpow_iff_log_lt (by norm_num) pos).mp high
  rw [ulp]
  congr 1
  omega

theorem two_pow_mul_ulp (n : ℕ) (x : ℚ) : 2 ^ n * ulp x = 2 ^ (Int.log 2 |x| + n - 52) := by
  rw [ulp, ← two_zpow_add]
  congr 1
  ring

theorem ulp_le (some_x : x ≠ 0) : 2 ^ 52 * ulp x ≤ |x| := by
  rw [two_pow_mul_ulp, show Int.log 2 |x| + (52 : ℕ) - 52 = Int.log 2 |x| by push_cast; ring]
  exact Int.zpow_log_le_self (by norm_num) (abs_pos.mpr some_x)

theorem lt_ulp (x : ℚ) : |x| < 2 ^ 53 * ulp x := by
  rw [two_pow_mul_ulp, show Int.log 2 |x| + (53 : ℕ) - 52 = Int.log 2 |x| + 1 by push_cast; ring]
  exact Int.lt_zpow_succ_log_self (by norm_num) _

@[simp] theorem nearest_zero : nearest 0 = 0 := by
  have integer : halfEven 0 = 0 := halfEven_intCast 0
  rw [nearest, zero_div, integer, Int.cast_zero, zero_mul]

theorem nearest_neg (x : ℚ) : nearest (-x) = -nearest x := by
  rw [nearest, ulp_neg, neg_div, halfEven_neg, Int.cast_neg, neg_mul, nearest]

/-- A whole number of units is not rounded. -/
theorem nearest_of_units {n : ℤ} (units : x = n * ulp x) : nearest x = x := by
  have quotient : x / ulp x = n := (div_eq_iff (ulp_pos x).ne').mpr units
  rw [nearest, quotient, halfEven_intCast, ← units]

/-- The error is at most half a unit. -/
theorem abs_nearest_sub_le (x : ℚ) : |nearest x - x| ≤ ulp x / 2 := by
  have units : nearest x - x = (halfEven (x / ulp x) - x / ulp x) * ulp x := by
    rw [nearest, sub_mul, div_mul_cancel₀ _ (ulp_pos x).ne']
  have whole := abs_halfEven_sub_le (x / ulp x)
  rw [units, abs_mul, abs_of_pos (ulp_pos x)]
  calc |halfEven (x / ulp x) - x / ulp x| * ulp x ≤ 1 / 2 * ulp x :=
        mul_le_mul_of_nonneg_right whole (ulp_pos x).le
    _ = ulp x / 2 := by ring

/-- The relative error is at most 2⁻⁵³. -/
theorem two_pow_mul_abs_nearest_sub_le (x : ℚ) : 2 ^ 53 * |nearest x - x| ≤ |x| := by
  by_cases some_x : x = 0
  · simp [some_x]
  · have error := abs_nearest_sub_le x
    have unit := ulp_le some_x
    linarith

theorem nearest_nonneg (h : 0 ≤ x) : 0 ≤ nearest x := by
  have quotient : ((0 : ℤ) : ℚ) ≤ x / ulp x := by
    rw [Int.cast_zero]
    exact div_nonneg h (ulp_pos x).le
  exact mul_nonneg (Int.cast_nonneg (le_halfEven quotient)) (ulp_pos x).le

/-- A number and what it is rounded to are between the same powers of two. -/
theorem zpow_log_le_nearest (h : 0 < x) : 2 ^ Int.log 2 x ≤ nearest x := by
  have quotient : ((2 ^ 52 : ℤ) : ℚ) ≤ x / ulp x := by
    have low := ulp_le h.ne'
    rw [abs_of_pos h] at low
    rw [le_div_iff₀ (ulp_pos x)]
    exact_mod_cast low
  have rounded := le_halfEven quotient
  calc (2 : ℚ) ^ Int.log 2 x = 2 ^ 52 * ulp x := by
        rw [two_pow_mul_ulp, abs_of_pos h]
        congr 1
        push_cast
        ring
    _ ≤ nearest x := mul_le_mul_of_nonneg_right (by exact_mod_cast rounded) (ulp_pos x).le

theorem nearest_le_zpow_log (h : 0 < x) : nearest x ≤ 2 ^ (Int.log 2 x + 1) := by
  have quotient : x / ulp x ≤ ((2 ^ 53 : ℤ) : ℚ) := by
    have high := lt_ulp x
    rw [abs_of_pos h] at high
    rw [div_le_iff₀ (ulp_pos x)]
    exact_mod_cast high.le
  have rounded := halfEven_le quotient
  calc nearest x ≤ 2 ^ 53 * ulp x :=
        mul_le_mul_of_nonneg_right (by exact_mod_cast rounded) (ulp_pos x).le
    _ = 2 ^ (Int.log 2 x + 1) := by
        rw [two_pow_mul_ulp, abs_of_pos h]
        congr 1
        push_cast
        ring

theorem nearest_pos (h : 0 < x) : 0 < nearest x :=
  (zpow_pos (by norm_num) _).trans_le (zpow_log_le_nearest h)

theorem abs_nearest (x : ℚ) : |nearest x| = nearest |x| := by
  rcases le_total 0 x with nonneg | nonpos
  · rw [abs_of_nonneg nonneg, abs_of_nonneg (nearest_nonneg nonneg)]
  · have opposite := nearest_nonneg (neg_nonneg.mpr nonpos)
    rw [abs_of_nonpos nonpos, ← abs_of_nonneg opposite, nearest_neg, abs_neg]

theorem log_nearest (some_x : x ≠ 0) :
    Int.log 2 |x| ≤ Int.log 2 |nearest x| ∧ Int.log 2 |nearest x| ≤ Int.log 2 |x| + 1 := by
  have pos := abs_pos.mpr some_x
  have pos' := nearest_pos pos
  rw [abs_nearest]
  constructor
  · exact (Int.zpow_le_iff_le_log (by norm_num) pos').mp (zpow_log_le_nearest pos)
  · have mono : Int.log 2 (nearest |x|) ≤ Int.log 2 ((2 : ℕ) ^ (Int.log 2 |x| + 1) : ℚ) :=
      Int.log_mono_right pos' (nearest_le_zpow_log pos)
    rwa [Int.log_zpow (by norm_num)] at mono

theorem nearest_ne_zero (some_x : x ≠ 0) : nearest x ≠ 0 := by
  rw [← abs_pos, abs_nearest]
  exact nearest_pos (abs_pos.mpr some_x)

theorem nearest_mono_of_pos (pos : 0 < x) (h : x ≤ y) : nearest x ≤ nearest y := by
  have pos' : 0 < y := pos.trans_le h
  rcases (Int.log_mono_right pos h : Int.log 2 x ≤ Int.log 2 y).lt_or_eq with below | same
  · calc nearest x ≤ 2 ^ (Int.log 2 x + 1) := nearest_le_zpow_log pos
      _ ≤ 2 ^ Int.log 2 y := zpow_le_zpow_right₀ (by norm_num) below
      _ ≤ nearest y := zpow_log_le_nearest pos'
  · have unit : ulp x = ulp y := by
      rw [ulp, ulp, abs_of_pos pos, abs_of_pos pos', same]
    rw [nearest, nearest, unit]
    refine mul_le_mul_of_nonneg_right (Int.cast_le.mpr (halfEven_mono ?_)) (ulp_pos y).le
    exact div_le_div_of_nonneg_right h (ulp_pos y).le

/-- Rounding keeps the order. -/
theorem nearest_mono (h : x ≤ y) : nearest x ≤ nearest y := by
  rcases lt_or_ge 0 x with pos | not_pos
  · exact nearest_mono_of_pos pos h
  · rcases lt_or_ge y 0 with neg | not_neg
    · have opposite := nearest_mono_of_pos (neg_pos.mpr neg) (neg_le_neg h)
      rw [nearest_neg, nearest_neg] at opposite
      exact neg_le_neg_iff.mp opposite
    · have below := nearest_nonneg (neg_nonneg.mpr not_pos)
      rw [nearest_neg] at below
      exact (neg_nonneg.mp below).trans (nearest_nonneg not_neg)

/-- Powers of two are kept as they are. -/
theorem nearest_two_pow (k : ℕ) : nearest (2 ^ k) = 2 ^ k := by
  have power : ((2 : ℕ) ^ (k : ℤ) : ℚ) = 2 ^ k := by
    rw [zpow_natCast, Nat.cast_ofNat]
  refine nearest_of_units (n := 2 ^ 52) ?_
  rw [Int.cast_pow, Int.cast_ofNat, two_pow_mul_ulp, abs_of_pos (by positivity), ← power,
    Int.log_zpow (by norm_num), power]
  push_cast
  rw [add_sub_cancel_right, zpow_natCast]

/-- Up to 2⁵³ integers are kept as they are. -/
theorem nearest_intCast {n : ℤ} (small : |n| ≤ 2 ^ 53) : nearest n = n := by
  rcases eq_or_ne n 0 with rfl | some_n
  · simp
  have pos : (0 : ℚ) < |(n : ℚ)| := abs_pos.mpr (Int.cast_ne_zero.mpr some_n)
  have bound : |(n : ℚ)| ≤ 2 ^ 53 := by exact_mod_cast small
  rcases lt_or_ge (Int.log 2 |(n : ℚ)|) 53 with below | above
  · refine nearest_of_units (n := n * 2 ^ (52 - Int.log 2 |(n : ℚ)|).toNat) ?_
    rw [ulp, Int.cast_mul, Int.cast_pow, ← zpow_natCast, Int.toNat_of_nonneg (by omega), mul_assoc,
      Int.cast_ofNat, ← zpow_add₀ (by norm_num)]
    simp
  · have top : |(n : ℚ)| = 2 ^ 53 := by
      refine le_antisymm bound ?_
      exact_mod_cast (Int.zpow_le_iff_le_log (by norm_num) pos).mpr above
    rcases abs_choice (n : ℚ) with same | opposite
    · rw [← same, top, nearest_two_pow]
    · rw [neg_eq_iff_eq_neg.mp (opposite.symm.trans top), nearest_neg, nearest_two_pow]

end Nearest

/-! ### Quotients of integers -/

section Quotients

variable {a b : ℤ} {x : ℚ}

/-- A number is rounded to one with the same integral part if it is far enough from the next
integer above. -/
theorem floor_nearest (small : |⌊x⌋| ≤ 2 ^ 53) (gap : |x| < 2 ^ 53 * (⌊x⌋ + 1 - x)) :
    ⌊nearest x⌋ = ⌊x⌋ := by
  rw [Int.floor_eq_iff]
  constructor
  · have below := nearest_mono (Int.floor_le x)
    rwa [nearest_intCast small] at below
  · have error := two_pow_mul_abs_nearest_sub_le x
    have above := le_abs_self (nearest x - x)
    linarith

theorem floor_nearest_div_of_pos (pos : 0 < b) (small : |a| < 2 ^ 53) :
    ⌊nearest (a / nearest b)⌋ = ⌊(a / b : ℚ)⌋ := by
  have pos' : (0 : ℚ) < b := Int.cast_pos.mpr pos
  have small' : |(a : ℚ)| ≤ 2 ^ 53 - 1 := by
    have : |a| ≤ 2 ^ 53 - 1 := by omega
    exact_mod_cast this
  obtain ⟨lower, upper⟩ := abs_le.mp small'
  rcases le_or_gt b (2 ^ 53) with exact | inexact
  · rw [nearest_intCast (abs_le.mpr ⟨by omega, exact⟩)]
    apply floor_nearest
    · have quotient : |(a / b : ℚ)| ≤ 2 ^ 53 - 1 := by
        rw [abs_div, abs_of_pos pos']
        refine (div_le_self (abs_nonneg _) ?_).trans small'
        exact_mod_cast pos
      obtain ⟨lower, upper⟩ := abs_le.mp quotient
      rw [abs_le]
      constructor
      · exact Int.le_floor.mpr (by push_cast; linarith)
      · exact Int.floor_le_iff.mpr (by push_cast; linarith)
    · -- between the quotient and the integer above it is at least one part of the divisor
      have part : 1 ≤ (⌊(a / b : ℚ)⌋ + 1) * b - a := by
        have above := (div_lt_iff₀ pos').mp (Int.lt_floor_add_one (a / b : ℚ))
        have : a < (⌊(a / b : ℚ)⌋ + 1) * b := by exact_mod_cast above
        omega
      have part' : (1 : ℚ) ≤ (⌊(a / b : ℚ)⌋ + 1) * b - a := by exact_mod_cast part
      rw [abs_div, abs_of_pos pos', div_lt_iff₀ pos', mul_assoc, sub_mul,
        div_mul_cancel₀ _ pos'.ne']
      linarith
  · -- the quotient is less than one, before and after rounding the divisor
    have large : (2 ^ 53 : ℚ) ≤ nearest b := by
      have mono := nearest_mono (show ((2 ^ 53 : ℤ) : ℚ) ≤ b by exact_mod_cast inexact.le)
      rw [nearest_intCast (by norm_num)] at mono
      exact_mod_cast mono
    have large' : (2 ^ 53 : ℚ) ≤ b := by exact_mod_cast inexact.le
    rcases le_or_gt 0 a with nonneg | neg
    · have nonneg' : (0 : ℚ) ≤ a := Int.cast_nonneg nonneg
      have floor_zero {y : ℚ} (large : 2 ^ 53 ≤ y) : ⌊a / y⌋ = 0 := by
        rw [Int.floor_eq_zero_iff, Set.mem_Ico]
        exact ⟨by positivity, (div_lt_one (by linarith)).mpr (by linarith)⟩
      rw [floor_nearest, floor_zero large, floor_zero large']
      · rw [floor_zero large]
        norm_num
      · rw [floor_zero large, abs_of_nonneg (by positivity), Int.cast_zero, zero_add, mul_sub,
          mul_one]
        have quotient : a / nearest b ≤ (2 ^ 53 - 1) / 2 ^ 53 :=
          div_le_div₀ (by norm_num) upper (by norm_num) large
        norm_num at quotient ⊢
        linarith
    · have neg' : (a : ℚ) < 0 := Int.cast_lt_zero.mpr neg
      have floor_neg {y : ℚ} (large : 2 ^ 53 ≤ y) : ⌊a / y⌋ = -1 := by
        rw [Int.floor_eq_iff]
        constructor
        · rw [le_div_iff₀ (by linarith)]
          push_cast
          linarith
        · push_cast
          rw [neg_add_cancel]
          exact div_neg_of_neg_of_pos neg' (by linarith)
      rw [floor_nearest, floor_neg large, floor_neg large']
      · rw [floor_neg large]
        norm_num
      · have quotient : a / nearest b < 0 := div_neg_of_neg_of_pos neg' (by linarith)
        rw [floor_neg large, abs_of_neg quotient]
        push_cast
        linarith

/-- The quotient of two integers, of which the dividend is less than 2⁵³, has the same integral
part if the divisor and then the quotient are rounded. -/
theorem floor_nearest_div (some_b : b ≠ 0) (small : |a| < 2 ^ 53) :
    ⌊nearest (a / nearest b)⌋ = ⌊(a / b : ℚ)⌋ := by
  rcases lt_or_gt_of_ne some_b with neg | pos
  · have opposite := floor_nearest_div_of_pos (a := -a) (neg_pos.mpr neg) (by rwa [abs_neg])
    rwa [Int.cast_neg, Int.cast_neg, nearest_neg, neg_div_neg_eq, neg_div_neg_eq] at opposite
  · exact floor_nearest_div_of_pos pos small

end Quotients

end RuleText.Decimal
