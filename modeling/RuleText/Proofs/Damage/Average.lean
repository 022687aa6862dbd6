import RuleText.Proofs.Damage.Totals

/-!
# Averages without saturation

An average is computed with saturating sums and products. When the products,
constants and modifiers are small enough together, nothing is saturated, in whatever
order they are added.
-/

namespace RuleText.Damage

/-- The amount stands for an integer of at most `bound`, in whose place it is if the
bound fits. -/
structure Accurate (a : Amount) (x : Int) (bound : Nat) : Prop where
  le : x.natAbs ≤ bound
  exact : (bound : Int) ≤ Amount.greatest → a.toInt = x

theorem fits_of_natAbs_le {x : Int} (h : (x.natAbs : Int) ≤ Amount.greatest) : Amount.Fits x := by
  unfold Amount.Fits Amount.least
  unfold Amount.greatest at h ⊢
  omega

theorem accurate_self (a : Amount) : Accurate a a.toInt a.toInt.natAbs where
  le := Nat.le_refl _
  exact _ := rfl

theorem accurate_saturate (x : Int) : Accurate (Amount.saturate x) x x.natAbs where
  le := Nat.le_refl _
  exact small := Amount.toInt_saturate_of_fits (fits_of_natAbs_le small)

theorem Accurate.add {a b : Amount} {x y : Int} {m n : Nat} (ha : Accurate a x m)
    (hb : Accurate b y n) : Accurate (Amount.addSaturating a b) (x + y) (m + n) where
  le := by
    have left := ha.le
    have right := hb.le
    omega
  exact := by
    intro small
    have left := ha.le
    have right := hb.le
    have first : a.toInt = x := ha.exact (by omega)
    have second : b.toInt = y := hb.exact (by omega)
    rw [Amount.addSaturating, first, second]
    apply Amount.toInt_saturate_of_fits
    apply fits_of_natAbs_le
    omega

theorem Accurate.mono {a : Amount} {x : Int} {m n : Nat} (h : Accurate a x m) (le : m ≤ n) :
    Accurate a x n where
  le := h.le.trans le
  exact small := h.exact (by omega)

/-- The amounts add an integer of at most `bound` to any accurate sum. -/
def AddUp (ns : List Amount) (x : Int) (bound : Nat) : Prop :=
  ∀ a y m, Accurate a y m → Accurate (ns.foldl Amount.addSaturating a) (y + x) (m + bound)

namespace AddUp

theorem nil : AddUp [] 0 0 := by
  intro a y m ha
  rwa [Int.add_zero]

theorem cons {n : Amount} {ns : List Amount} {x y : Int} {b c : Nat} (first : Accurate n x b)
    (more : AddUp ns y c) : AddUp (n :: ns) (x + y) (b + c) := by
  intro a z m ha
  rw [List.foldl_cons, ← Int.add_assoc, ← Nat.add_assoc]
  exact more _ _ _ (ha.add first)

theorem sum {ns : List Amount} {x : Int} {bound : Nat} (h : AddUp ns x bound) :
    Accurate (Amount.sum ns) x bound := by
  have all := h 0 0 0 (accurate_self 0)
  rwa [Int.zero_add, Nat.zero_add] at all

end AddUp

/-- Sums of accurate amounts are accurate. -/
theorem accurate_sum {α : Type} {f : α → Amount} {value : α → Int} {bound : α → Nat} (xs : List α)
    (h : ∀ x ∈ xs, Accurate (f x) (value x) (bound x)) :
    Accurate (Amount.sum (xs.map f)) (xs.map value).sum (xs.map bound).sum := by
  apply AddUp.sum
  induction xs with
  | nil => exact .nil
  | cons x xs ih =>
    obtain ⟨first, more⟩ := List.forall_mem_cons.mp h
    exact .cons first (ih more)

/-! ### Damage -/

/-- What a die counts in an average: half of one more than its sides, rounded down. -/
def dieAverage (size : Amount) : Int :=
  (size.toInt + 1) / 2

/-- The absolute values of the products, constants and modifiers that are added for an
average. -/
def Term.bulk : Term → Nat
  | constant c => c.toInt.natAbs
  | dice d => (d.count.toInt * dieAverage d.size).natAbs + d.modifier.toInt.natAbs

/-- The bulk of all terms. -/
def Instance.bulk (i : Instance) : Nat :=
  (i.groups.map fun g => (g.terms.map Term.bulk).sum).sum

theorem toInt_half_addSaturating {size : Amount} (some : 1 ≤ size.toInt)
    (below : size.toInt < Amount.greatest) :
    (Amount.addSaturating size 1 / 2).toInt = dieAverage size := by
  have fits : Amount.Fits (size.toInt + 1) := by
    unfold Amount.greatest at below
    unfold Amount.Fits Amount.least Amount.greatest
    omega
  have sum : (Amount.addSaturating size 1).toInt = size.toInt + 1 :=
    Amount.toInt_saturate_of_fits fits
  rw [Int64.toInt_div_of_ne_right _ _ (by decide), sum, dieAverage]
  exact Int.tdiv_eq_ediv_of_nonneg (by omega)

theorem accurate_average {t : Term}
    (sizes : ∀ d, t = .dice d → 1 ≤ d.size.toInt ∧ d.size.toInt < Amount.greatest) :
    Accurate t.average (t.diceSum dieAverage + t.flat) t.bulk := by
  cases t with
  | constant c =>
    show Accurate c (0 + c.toInt) c.toInt.natAbs
    rw [Int.zero_add]
    exact accurate_self c
  | dice d =>
    obtain ⟨some, below⟩ := sizes d rfl
    have product := accurate_saturate (d.count.toInt * dieAverage d.size)
    show Accurate d.average _ _
    rw [Dice.average, Amount.mulSaturating, toInt_half_addSaturating some below]
    exact product.add (accurate_self d.modifier)

/-- The average is that of the dice and the flat part, if the bulk fits. -/
theorem accurate_instance {i : Instance}
    (sizes : ∀ d, .dice d ∈ i.terms → 1 ≤ d.size.toInt ∧ d.size.toInt < Amount.greatest) :
    Accurate i.average (i.diceSum dieAverage + i.flat) i.bulk := by
  rw [Instance.diceSum, Instance.flat, ← total_add, total_eq_sum]
  apply accurate_sum
  intro g hg
  apply accurate_sum
  intro t ht
  apply accurate_average
  rintro d rfl
  exact sizes d (List.mem_flatMap.mpr ⟨g, hg, ht⟩)

end RuleText.Damage
