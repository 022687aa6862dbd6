import Mathlib.Data.Rat.Floor
import RuleText.Proofs.Damage.Operations

/-!
# Multiplying and dividing damage

A product or quotient changes constants and numbers of dice and nothing else. Each of them
becomes what exact arithmetic gives, with quotients rounded down whatever the signs, and the
operation fails if one of these does not fit (`apply_scale_exact`). It is not even begun for a
division by zero, or where dice would be multiplied or divided by a number that is not
positive.
-/

namespace RuleText

/-- What the operator does with integers that have no bounds. Quotients are rounded down. -/
def Formula.Operator.exact : Formula.Operator → Int → Int → Int
  | .add, x, n => x + n
  | .sub, x, n => x - n
  | .mul, x, n => x * n
  | .div, x, n => ⌊(x / n : ℚ)⌋

/-! ### Quotients -/

theorem fdiv_eq_floor (x n : Int) : x.fdiv n = ⌊(x / n : ℚ)⌋ := by
  have nonneg (x n : Int) (h : 0 ≤ n) : x.fdiv n = ⌊(x / n : ℚ)⌋ := by
    lift n to Nat using h
    rw [Int.fdiv_eq_ediv_of_nonneg x (Int.natCast_nonneg n)]
    exact (Rat.floor_intCast_div_natCast x n).symm
  obtain h | h := Int.le_total 0 n
  · exact nonneg x n h
  · have opposite := nonneg (-x) (-n) (Int.neg_nonneg_of_nonpos h)
    rwa [Int.neg_fdiv_neg, Int.cast_neg, Int.cast_neg, neg_div_neg_eq] at opposite

theorem fdiv_eq_tdiv_sub {x n : Int} (nonzero : n ≠ 0) :
    x.fdiv n = x.tdiv n - if x.tmod n ≠ 0 ∧ ¬ (x < 0 ↔ n < 0) then 1 else 0 := by
  simp only [Int.fdiv_eq_tdiv, Int.dvd_iff_tmod_eq_zero]
  congr 1
  obtain negative | positive := Int.lt_or_gt_of_ne nonzero
  · have sign := Int.sign_eq_neg_one_of_neg negative
    split_ifs <;> omega
  · have sign := Int.sign_eq_one_of_pos positive
    split_ifs <;> omega

namespace Amount

/-- What lies between zero and an amount is in the range. -/
theorem fits_of_between {x : Int} (a : Amount)
    (between : a.toInt ≤ x ∧ x ≤ 0 ∨ 0 ≤ x ∧ x ≤ a.toInt) : Fits x := by
  obtain ⟨lower, upper⟩ := fits_toInt a
  unfold Fits least greatest at *
  omega

theorem fits_fdiv {n : Int} (a : Amount) (positive : 1 ≤ n) : Fits (a.toInt.fdiv n) := by
  rw [Int.fdiv_eq_ediv_of_nonneg _ (by omega)]
  refine fits_of_between a ?_
  obtain h | h := Int.le_total 0 a.toInt
  · have nonneg := Int.ediv_nonneg h (by omega : 0 ≤ n)
    exact .inr ⟨nonneg, Int.ediv_le_self n h⟩
  · have le := Int.le_ediv_of_mul_le (by omega : 0 < n) (by nlinarith : a.toInt * n ≤ a.toInt)
    have lt := Int.ediv_lt_of_lt_mul (by omega : 0 < n) (by omega : a.toInt < 1 * n)
    exact .inl ⟨le, by omega⟩

/-- The only quotient of two amounts that is out of range is positive. -/
theorem fits_tdiv {a : Amount} {n : Int} (apart : ¬ (a.toInt < 0 ↔ n < 0)) :
    Fits (a.toInt.tdiv n) := by
  have le : (a.toInt.tdiv n).natAbs ≤ a.toInt.natAbs := Int.natAbs_tdiv_le_natAbs _ _
  by_cases negative : a.toInt < 0
  · have nonpos : a.toInt.tdiv n ≤ 0 := by
      have nonneg := Int.tdiv_nonneg (by omega : 0 ≤ -a.toInt) (by omega : 0 ≤ n)
      rw [Int.neg_tdiv] at nonneg
      omega
    exact fits_of_between a (.inl ⟨by omega, nonpos⟩)
  · obtain ⟨lower, upper⟩ := fits_toInt a
    unfold Fits least greatest at *
    omega

/-- The quotient is also found by a division that drops the fraction, with one less where
something is dropped and the signs differ. Both steps are checked. -/
theorem floorDiv?_eq_truncated {a b : Amount} (nonzero : b.toInt ≠ 0) :
    floorDiv? a b = (fit? (a.toInt.tdiv b.toInt)).bind fun q =>
      if a.toInt.tmod b.toInt ≠ 0 ∧ ¬ (a.toInt < 0 ↔ b.toInt < 0) then fit? (q.toInt - 1)
      else some q := by
  rw [floorDiv?, fdiv_eq_tdiv_sub nonzero]
  by_cases corrected : a.toInt.tmod b.toInt ≠ 0 ∧ ¬ (a.toInt < 0 ↔ b.toInt < 0)
  · obtain ⟨q, quotient⟩ : ∃ q, fit? (a.toInt.tdiv b.toInt) = some q :=
      ⟨_, if_pos (fits_tdiv corrected.2)⟩
    simp only [quotient, Option.bind_some, if_pos corrected, fit?_eq_some_iff.mp quotient]
  · simp only [if_neg corrected, Option.bind_fun_some, Int.sub_zero]

end Amount

namespace Damage

open Formula (Operator)

/-! ### Terms -/

/-- The exact result is an amount. A quotient of dice always is. -/
def Term.Scalable (op : Operator) (n : Int) : Term → Prop
  | constant c => Amount.Fits (op.exact c.toInt n)
  | dice d => op = .mul → Amount.Fits (d.count.toInt * n)

/-- The second term is the first one with the exact product or quotient as its constant or
its number of dice, of which a quotient leaves at least one. -/
inductive ScalesExactly (op : Operator) (n : Int) : Term → Term → Prop
  | constant {a b : Amount} : b.toInt = op.exact a.toInt n →
      ScalesExactly op n (.constant a) (.constant b)
  | product {d : Dice} {count : Amount} : op = .mul → count.toInt = d.count.toInt * n →
      ScalesExactly op n (.dice d) (.dice { d with count })
  | quotient {d : Dice} {count : Amount} : op = .div →
      count.toInt = max 1 ⌊(d.count.toInt / n : ℚ)⌋ →
      ScalesExactly op n (.dice d) (.dice { d with count })

section Term

variable {op : Operator} {n : Amount} {t : Term} (scale : op = .mul ∨ op = .div)
  (nonzero : ¬ (op = .div ∧ n = 0))
include scale nonzero

/-- The operator on constants. -/
theorem apply_constant (c : Amount) :
    (Term.constant c).apply op n =
      EvalError.orOverflow ((Amount.fit? (op.exact c.toInt n.toInt)).map .constant) := by
  obtain rfl | rfl := scale
  · rfl
  · have divisor : ¬ n = 0 := fun zero => nonzero ⟨rfl, zero⟩
    rw [Term.apply, Term.shrink, floorDiv, if_neg divisor, Amount.floorDiv?, fdiv_eq_floor,
      Operator.exact]
    cases Amount.fit? ⌊(c.toInt / n.toInt : ℚ)⌋ <;> rfl

theorem exists_apply (guard : 1 ≤ n.toInt ∨ t.isDice = false) (fits : t.Scalable op n.toInt) :
    ∃ t', t.apply op n = .ok t' ∧ ScalesExactly op n.toInt t t' := by
  cases t with
  | constant c =>
    have result : Amount.fit? (op.exact c.toInt n.toInt) = some _ := if_pos fits
    refine ⟨_, ?_, .constant (Amount.fit?_eq_some_iff.mp result)⟩
    rw [apply_constant scale nonzero, result]
    rfl
  | dice d =>
    obtain rfl | rfl := scale
    · have result : Amount.mul? d.count n = some _ := if_pos (fits rfl)
      refine ⟨_, ?_, .product rfl (Amount.fit?_eq_some_iff.mp result)⟩
      rw [Term.apply, Term.scale, result]
      rfl
    · have divisor : ¬ n = 0 := fun zero => nonzero ⟨rfl, zero⟩
      have positive : 1 ≤ n.toInt := guard.resolve_right (by simp [Term.isDice])
      obtain ⟨k, result⟩ : ∃ k, Amount.floorDiv? d.count n = some k :=
        ⟨_, if_pos (Amount.fits_fdiv d.count positive)⟩
      have value : k.toInt = ⌊(d.count.toInt / n.toInt : ℚ)⌋ :=
        (Amount.fit?_eq_some_iff.mp result).trans (fdiv_eq_floor _ _)
      refine ⟨.dice { d with count := if k.toInt < 1 then 1 else k }, ?_, .quotient rfl ?_⟩
      · rw [Term.apply, Term.shrink, floorDiv, if_neg divisor, result]
        rfl
      · rw [← value]
        have one : (1 : Amount).toInt = 1 := rfl
        split <;> omega

theorem apply_eq_overflow (fits : ¬ t.Scalable op n.toInt) : t.apply op n = .error .overflow := by
  cases t with
  | constant c =>
    rw [apply_constant scale nonzero, Amount.fit?_eq_none_iff.mpr fits]
    rfl
  | dice d =>
    obtain ⟨rfl, large⟩ := Classical.not_imp.mp fits
    rw [Term.apply, Term.scale, Amount.mul?, Amount.fit?_eq_none_iff.mpr large]
    rfl

end Term

/-! ### All terms -/

theorem exists_forall₂ {α β : Type} {R : α → β → Prop} {xs : List α} (h : ∀ x ∈ xs, ∃ y, R x y) :
    ∃ ys, List.Forall₂ R xs ys := by
  induction xs with
  | nil => exact ⟨[], .nil⟩
  | cons x xs ih =>
    obtain ⟨⟨y, related⟩, more⟩ := List.forall_mem_cons.mp h
    obtain ⟨ys, all⟩ := ih more
    exact ⟨y :: ys, .cons related all⟩

section Each

variable {σ : Type} {change : σ → Attempt σ Unit} {xs : List σ}

/-- A change of all members succeeds exactly if the change of each of them does. -/
theorem each_eq_ok_iff {ys : List σ} :
    Attempt.each change xs = ⟨.ok (), ys⟩ ↔
      List.Forall₂ (fun x y => change x = ⟨.ok (), y⟩) xs ys := by
  constructor
  · intro h
    induction xs generalizing ys with
    | nil =>
      cases h
      exact .nil
    | cons x xs ih =>
      rw [Attempt.each] at h
      cases result : (change x).result with
      | error e => simp [result] at h
      | ok _ =>
        simp only [result, Attempt.mk.injEq] at h
        obtain ⟨rest, rfl⟩ := h
        have first : change x = ⟨.ok (), (change x).state⟩ := by rw [← result]
        have more : Attempt.each change xs = ⟨.ok (), (Attempt.each change xs).state⟩ := by
          rw [← rest]
        exact .cons first (ih more)
  · intro h
    induction h with
    | nil => rfl
    | cons first _ ih => simp only [Attempt.each, first, ih]

theorem each_of_forall {R : σ → σ → Prop}
    (h : ∀ x ∈ xs, ∃ y, change x = ⟨.ok (), y⟩ ∧ R x y) :
    ∃ ys, Attempt.each change xs = ⟨.ok (), ys⟩ ∧ List.Forall₂ R xs ys := by
  obtain ⟨ys, all⟩ := exists_forall₂ h
  exact ⟨ys, each_eq_ok_iff.mpr (all.imp fun _ _ => And.left), all.imp fun _ _ => And.right⟩

/-- If members can fail in one way only and one does, their change fails in this way. -/
theorem each_of_error {e : EvalError}
    (h : ∀ x ∈ xs, (change x).result = .ok () ∨ (change x).result = .error e) {x : σ} (hx : x ∈ xs)
    (failed : (change x).result = .error e) : (Attempt.each change xs).result = .error e := by
  induction xs with
  | nil => cases hx
  | cons y ys ih =>
    obtain ⟨first, more⟩ := List.forall_mem_cons.mp h
    rw [Attempt.each]
    obtain succeeds | fails := first
    · simp only [succeeds]
      obtain rfl | hx := List.mem_cons.mp hx
      · rw [failed] at succeeds
        cases succeeds
      · exact ih more hx
    · simp only [fails]

end Each

/-- All terms of a group become exact products or quotients, under the same tags. -/
structure Group.ScalesExactly (op : Operator) (n : Int) (g g' : Group) : Prop where
  tags : g'.tags = g.tags
  terms : List.Forall₂ (Damage.ScalesExactly op n) g.terms g'.terms

/-- Multiplies or divides the terms of a group. -/
def Group.rescale (op : Operator) (n : Amount) (g : Group) : Attempt Group Unit :=
  let terms := Attempt.each (fun t => Attempt.ofExcept t (t.apply op n)) g.terms
  ⟨terms.result, { g with terms := terms.state }⟩

theorem rescale_eq (op : Operator) (n : Amount) (i : Instance) :
    i.rescale op n = ⟨(Attempt.each (Group.rescale op n) i.groups).result,
      { i with groups := (Attempt.each (Group.rescale op n) i.groups).state }⟩ := rfl

theorem guard_of_mem {n : Amount} {i : Instance}
    (guard : 1 ≤ n.toInt ∨ ∀ t ∈ i.terms, t.isDice = false) {g : Group} (hg : g ∈ i.groups) :
    ∀ t ∈ g.terms, 1 ≤ n.toInt ∨ t.isDice = false := by
  intro t ht
  exact guard.imp_right fun constants => constants t (List.mem_flatMap.mpr ⟨g, hg, ht⟩)

section Rescale

variable {op : Operator} {n : Amount} (scale : op = .mul ∨ op = .div)
  (nonzero : ¬ (op = .div ∧ n = 0))
include scale nonzero

theorem Group.rescale_of_scalable {g : Group}
    (guard : ∀ t ∈ g.terms, 1 ≤ n.toInt ∨ t.isDice = false)
    (fits : ∀ t ∈ g.terms, t.Scalable op n.toInt) :
    ∃ g', g.rescale op n = ⟨.ok (), g'⟩ ∧ g.ScalesExactly op n.toInt g' := by
  have changed : ∀ t ∈ g.terms, ∃ t', Attempt.ofExcept t (t.apply op n) = ⟨.ok (), t'⟩ ∧
      Damage.ScalesExactly op n.toInt t t' := by
    intro t ht
    obtain ⟨t', applied, exactly⟩ := exists_apply scale nonzero (guard t ht) (fits t ht)
    exact ⟨t', by rw [applied, Attempt.ofExcept], exactly⟩
  obtain ⟨terms, each, all⟩ := each_of_forall changed
  exact ⟨{ g with terms }, by rw [Group.rescale, each], rfl, all⟩

theorem Group.rescale_of_not_scalable {g : Group}
    (guard : ∀ t ∈ g.terms, 1 ≤ n.toInt ∨ t.isDice = false) {t : Term} (ht : t ∈ g.terms)
    (large : ¬ t.Scalable op n.toInt) : (g.rescale op n).result = .error .overflow := by
  refine each_of_error (fun t ht => ?_) ht ?_
  · by_cases fits : t.Scalable op n.toInt
    · obtain ⟨t', applied, -⟩ := exists_apply scale nonzero (guard t ht) fits
      rw [applied]
      exact .inl rfl
    · rw [apply_eq_overflow scale nonzero fits]
      exact .inr rfl
  · rw [apply_eq_overflow scale nonzero large]
    rfl

variable {i : Instance} (guard : 1 ≤ n.toInt ∨ ∀ t ∈ i.terms, t.isDice = false)
include guard

theorem rescale_of_scalable (fits : ∀ t ∈ i.terms, t.Scalable op n.toInt) :
    ∃ groups, i.rescale op n = ⟨.ok (), { i with groups }⟩ ∧
      List.Forall₂ (Group.ScalesExactly op n.toInt) i.groups groups := by
  have changed : ∀ g ∈ i.groups, ∃ g', g.rescale op n = ⟨.ok (), g'⟩ ∧
      g.ScalesExactly op n.toInt g' := by
    intro g hg
    have fits : ∀ t ∈ g.terms, t.Scalable op n.toInt :=
      fun t ht => fits t (List.mem_flatMap.mpr ⟨g, hg, ht⟩)
    exact Group.rescale_of_scalable scale nonzero (guard_of_mem guard hg) fits
  obtain ⟨groups, each, all⟩ := each_of_forall changed
  exact ⟨groups, by rw [rescale_eq, each], all⟩

theorem rescale_of_not_scalable (large : ∃ t ∈ i.terms, ¬ t.Scalable op n.toInt) :
    (i.rescale op n).result = .error .overflow := by
  obtain ⟨t, ht, large⟩ := large
  obtain ⟨g, hg, ht⟩ := List.mem_flatMap.mp ht
  rw [rescale_eq]
  refine each_of_error (fun g hg => ?_) hg ?_
  · by_cases fits : ∀ t ∈ g.terms, t.Scalable op n.toInt
    · obtain ⟨g', changed, -⟩ :=
        Group.rescale_of_scalable scale nonzero (guard_of_mem guard hg) fits
      rw [changed]
      exact .inl rfl
    · obtain ⟨t, ht, large⟩ := by simpa using fits
      exact .inr (Group.rescale_of_not_scalable scale nonzero (guard_of_mem guard hg) ht large)
  · exact Group.rescale_of_not_scalable scale nonzero (guard_of_mem guard hg) ht large

/-- There is no other way to fail. -/
theorem rescale_ok_or_overflow :
    (i.rescale op n).result = .ok () ∨ (i.rescale op n).result = .error .overflow := by
  by_cases fits : ∀ t ∈ i.terms, t.Scalable op n.toInt
  · obtain ⟨groups, changed, -⟩ := rescale_of_scalable scale nonzero guard fits
    rw [changed]
    exact .inl rfl
  · exact .inr (rescale_of_not_scalable scale nonzero guard (by simpa using fits))

end Rescale

/-! ### Instances -/

/-- Division by zero fails, and so does a product or quotient of dice with a number that is
not positive; the instance is left as it was. Everything else succeeds exactly if all exact
results are amounts, and fails with an overflow if not. Constants and numbers of dice are then
exact, and the rest of the instance is unchanged. -/
theorem apply_scale_exact {op : Operator} (scale : op = .mul ∨ op = .div) (n : Amount)
    (i : Instance) :
    (op = .div ∧ n = 0 → i.apply op n = ⟨.error .divisionByZero, i⟩) ∧
    (¬ (op = .div ∧ n = 0) → n.toInt < 1 →
      ((i.apply op n).result = .error (.invalidOperands op ("damage ".toList ++ i.text)
        ("number ".toList ++ Text.ofInt n.toInt)) ↔ ∃ t ∈ i.terms, t.isDice = true) ∧
      ((∃ t ∈ i.terms, t.isDice = true) → (i.apply op n).state = i)) ∧
    (¬ (op = .div ∧ n = 0) → 1 ≤ n.toInt ∨ (∀ t ∈ i.terms, t.isDice = false) →
      ((i.apply op n).result = .ok () ↔ ∀ t ∈ i.terms, t.Scalable op n.toInt) ∧
      ((i.apply op n).result ≠ .ok () → (i.apply op n).result = .error .overflow) ∧
      ((i.apply op n).result = .ok () →
        (i.apply op n).state.shortLabel = i.shortLabel ∧
        List.Forall₂ (Group.ScalesExactly op n.toInt) i.groups (i.apply op n).state.groups)) := by
  rw [apply_scale_eq scale]
  refine ⟨fun zero => if_pos zero, fun nonzero small => ?_, fun nonzero guard => ?_⟩
  · rw [if_neg nonzero]
    by_cases dice : ∃ t ∈ i.terms, t.isDice = true
    · rw [if_pos ⟨small, List.any_eq_true.mpr dice⟩]
      exact ⟨iff_of_true rfl dice, fun _ => rfl⟩
    · have constants : ∀ t ∈ i.terms, t.isDice = false := by simpa using dice
      rw [if_neg fun both => dice (List.any_eq_true.mp both.2)]
      refine ⟨iff_of_false ?_ dice, fun some => absurd some dice⟩
      obtain done | overflow := rescale_ok_or_overflow scale nonzero (.inr constants)
      · simp [done]
      · simp [overflow]
  · have begun : ¬ (n.toInt < 1 ∧ i.terms.any Term.isDice = true) := by
      rintro ⟨small, dice⟩
      obtain ⟨t, ht, dice⟩ := List.any_eq_true.mp dice
      have constant := guard.resolve_left (by omega) t ht
      rw [dice] at constant
      cases constant
    rw [if_neg nonzero, if_neg begun]
    by_cases fits : ∀ t ∈ i.terms, t.Scalable op n.toInt
    · obtain ⟨groups, changed, exactly⟩ := rescale_of_scalable scale nonzero guard fits
      rw [changed]
      exact ⟨iff_of_true rfl fits, fun failed => absurd rfl failed, fun _ => ⟨rfl, exactly⟩⟩
    · have overflow := rescale_of_not_scalable scale nonzero guard (by simpa using fits)
      rw [overflow]
      exact ⟨iff_of_false (by simp) fits, fun _ => rfl, fun done => by cases done⟩

/-- The quotients are -3½ and, among the dice, 2½ and ½. -/
def diceAndPenalty : Instance :=
  ⟨[⟨[.dice ⟨5, 6, -1⟩, .constant (-7)], ["fire".toList]⟩, ⟨[.dice ⟨1, 4, 0⟩], []⟩], true⟩

def halved : Instance :=
  ⟨[⟨[.dice ⟨2, 6, -1⟩, .constant (-4)], ["fire".toList]⟩, ⟨[.dice ⟨1, 4, 0⟩], []⟩], true⟩

theorem apply_div_diceAndPenalty :
    (1 ≤ (2 : Amount).toInt ∧ diceAndPenalty.apply .div 2 = ⟨.ok (), halved⟩ ∧
      List.Forall₂ (Group.ScalesExactly .div 2) diceAndPenalty.groups halved.groups) ∧
    diceAndPenalty.apply .div 0 = ⟨.error .divisionByZero, diceAndPenalty⟩ ∧
    (diceAndPenalty.apply .div (-2)).state = diceAndPenalty := by
  have positive : 1 ≤ (2 : Amount).toInt := by decide
  have applied : diceAndPenalty.apply .div 2 = ⟨.ok (), halved⟩ := rfl
  obtain ⟨-, -, all⟩ := apply_scale_exact (.inr rfl) 2 diceAndPenalty
  obtain ⟨-, -, done⟩ := all (by decide) (.inl positive)
  obtain ⟨-, exactly⟩ := done (by rw [applied])
  obtain ⟨zero, -, -⟩ := apply_scale_exact (.inr rfl) 0 diceAndPenalty
  obtain ⟨-, guarded, -⟩ := apply_scale_exact (.inr rfl) (-2) diceAndPenalty
  obtain ⟨-, unchanged⟩ := guarded (by decide) (by decide)
  exact ⟨⟨positive, applied, exactly⟩, zero ⟨rfl, rfl⟩, unchanged (by decide)⟩

end Damage

end RuleText
