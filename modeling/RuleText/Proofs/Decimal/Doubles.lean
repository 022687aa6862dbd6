import RuleText.Proofs.Decimal.Rounding

/-!
# Doubles as rational numbers

A double that is zero or has 53 digits stands for a rational number (`Stands`). Conversions
from integers and quotients come to the nearest number with 53 digits (`stands_ofInt`,
`Stands.div`), comparing doubles compares the numbers (`Stands.lt_iff`), and rounding them down
to an integer is the floor of the number (`Stands.floor_ofFloat`).
-/

namespace RuleText.Decimal

open Float.Model Float.Model.UnpackedFloat

/-- The number is zero or far from the bounds of exponents. -/
def Moderate (q : ℚ) : Prop :=
  -400 ≤ Int.log 2 |q| ∧ Int.log 2 |q| ≤ 400

/-! ### Operations -/

/-- A double stands for a number, which is zero or has 53 digits. -/
inductive Stands : Float → ℚ → Prop
  | zero (s : Sign) : Stands (.ofModel (.pack (.zero s))) 0
  | normal (n : Normal) : Stands n.toFloat n.value

section Operations

variable {x y : Float} {p q : ℚ}

theorem unpack_zero (s : Sign) : (Float.Model.pack (.zero s)).unpack = .zero s := by
  cases s <;> rfl

theorem Stands.exists_normal (h : Stands x q) (some_q : q ≠ 0) :
    ∃ n : Normal, x = n.toFloat ∧ n.value = q := by
  cases h with
  | zero s => exact absurd rfl some_q
  | normal n => exact ⟨n, rfl, rfl⟩

/-- Rounding down a double gives the floor of its value. -/
theorem Stands.floor_ofFloat (h : Stands x q) : (Binary.ofFloat x).floor = Amount.saturate ⌊q⌋ := by
  cases h with
  | zero s => cases s <;> decide +kernel
  | normal n =>
    rw [n.ofFloat_toFloat, floor_finite, Normal.negative, Normal.value]
    cases n.sign <;> rfl

theorem Stands.neg (h : Stands x q) : Stands (-x) (-q) := by
  cases h with
  | zero s =>
    have negated : -(Float.ofModel (.pack (.zero s))) = .ofModel (.pack (.zero (-s))) := by
      show Float.ofModel (.pack (Float.Model.pack (.zero s)).unpack.neg) = _
      rw [unpack_zero]
      rfl
    rw [negated, neg_zero]
    exact .zero (-s)
  | normal n =>
    have negated : -n.toFloat = Normal.toFloat { n with sign := -n.sign } := by
      show Float.ofModel (.pack n.toFloat.toModel.unpack.neg) = _
      rw [n.unpack_toFloat]
      rfl
    have opposite : -n.value = Normal.value { n with sign := -n.sign } := by
      unfold Normal.value
      cases n.sign
      · exact neg_neg _
      · rfl
    rw [negated, opposite]
    exact .normal _

theorem lt_iff_compare : x < y ↔ x.toModel.unpack.compare y.toModel.unpack = some .lt := by
  refine Iff.trans (decide_eq_true_iff (p := x.toModel < y.toModel)) ?_
  exact beq_iff_eq (a := x.toModel.unpack.compare y.toModel.unpack)

end Operations

/-- Doubles are less than each other as their values are. -/
theorem Stands.lt_iff {x y : Float} {p q : ℚ} (hx : Stands x p) (hy : Stands y q) :
    x < y ↔ p < q := by
  rw [lt_iff_compare]
  cases hx with
  | zero s =>
    rw [unpack_zero]
    cases hy with
    | zero s' =>
      rw [unpack_zero]
      exact iff_of_false (by rintro ⟨⟩) (lt_irrefl 0)
    | normal n =>
      rw [n.unpack_toFloat]
      have pos := n.magnitude_pos
      show _ ↔ 0 < signed n.sign n.magnitude
      unfold Normal.unpacked
      cases n.sign
      · exact iff_of_false (by rintro ⟨⟩) (by unfold signed; linarith)
      · exact iff_of_true rfl pos
  | normal n =>
    rw [n.unpack_toFloat]
    cases hy with
    | zero s' =>
      rw [unpack_zero]
      have pos := n.magnitude_pos
      show _ ↔ signed n.sign n.magnitude < 0
      unfold Normal.unpacked
      cases n.sign
      · exact iff_of_true rfl (neg_lt_zero.mpr pos)
      · exact iff_of_false (by rintro ⟨⟩) (by unfold signed; linarith)
    | normal n' =>
      rw [n'.unpack_toFloat]
      exact Normal.compare_unpacked

theorem Stands.div {x y : Float} {p q : ℚ} (hx : Stands x p) (hy : Stands y q) (some_p : p ≠ 0)
    (some_q : q ≠ 0) (moderate : Moderate p) (moderate' : Moderate q) :
    Stands (x / y) (nearest (p / q)) := by
  obtain ⟨a, rfl, rfl⟩ := hx.exists_normal some_p
  obtain ⟨b, rfl, rfl⟩ := hy.exists_normal some_q
  rw [Moderate, Normal.log_value] at moderate moderate'
  obtain ⟨n, divided, value⟩ := Normal.exists_div (a := a) (b := b) (by omega) (by omega)
  rw [divided, ← value]
  exact .normal n

/-- Converting an integer of 64 bits comes to the nearest double. -/
theorem stands_ofInt {n : Int} (fits : |n| < 2 ^ 64) : Stands (Float.ofInt n) (nearest n) := by
  cases n with
  | ofNat n =>
    rw [Int.ofNat_eq_natCast, Nat.abs_cast] at fits
    show Stands (Float.ofNat n) (nearest ((n : Int) : ℚ))
    rw [Int.cast_natCast]
    rcases Nat.eq_zero_or_pos n with rfl | pos
    · rw [Nat.cast_zero, nearest_zero,
        show Float.ofNat 0 = .ofModel (.pack (.zero .positive)) by decide +kernel]
      exact .zero .positive
    · obtain ⟨a, converted, value⟩ := exists_ofNat pos (by omega)
      rw [converted, ← value]
      exact .normal a
  | negSucc n =>
    rw [Int.negSucc_eq, abs_neg] at fits
    show Stands (-(Float.ofNat (n + 1))) _
    have fits' := (abs_lt.mp fits).2
    obtain ⟨a, converted, value⟩ := exists_ofNat n.succ_pos (by omega)
    rw [Int.negSucc_eq, Int.cast_neg, nearest_neg, Int.cast_add, Int.cast_natCast, Int.cast_one,
      ← Nat.cast_succ, ← value, converted]
    exact (Stands.normal a).neg

theorem moderate_nearest_intCast {n : Int} (fits : |n| < 2 ^ 64) : Moderate (nearest n) := by
  rcases eq_or_ne n 0 with rfl | some_n
  · simp [Moderate]
  have some_n' : (n : ℚ) ≠ 0 := Int.cast_ne_zero.mpr some_n
  have log : Int.log 2 |(n : ℚ)| = Nat.log 2 n.natAbs := by
    rw [← Int.cast_abs, Int.abs_eq_natAbs, Int.cast_natCast, Int.log_natCast]
  obtain ⟨above, below⟩ := abs_lt.mp fits
  have short : Nat.log 2 n.natAbs < 64 := Nat.log_lt_of_lt_pow (by omega) (by omega)
  obtain ⟨low, high⟩ := log_nearest some_n'
  rw [Moderate]
  omega

end RuleText.Decimal
