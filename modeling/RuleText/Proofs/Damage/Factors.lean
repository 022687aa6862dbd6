import Mathlib.Data.Int.DivMod
import RuleText.Proofs.Damage.Scaling

/-!
# Products and quotients in a row

A product is undone by the quotient with the same number, two products in a row are one
product, and so are two quotients, although a quotient never leaves less than one die
(`factors_compose`).

An operation that succeeds has changed all terms, each by itself (`apply_eq_ok_iff`). So these
laws are laws of single terms, and what holds term by term holds of instances.
-/

namespace RuleText.Damage

open Formula (Operator)

/-! ### Term by term -/

section List

variable {α β γ : Type}

theorem forall₂_comp_iff {R : α → β → Prop} {S : β → γ → Prop} {xs : List α} {zs : List γ} :
    List.Forall₂ (Relation.Comp R S) xs zs ↔
      Relation.Comp (List.Forall₂ R) (List.Forall₂ S) xs zs := by
  constructor
  · intro h
    induction h with
    | nil => exact ⟨[], .nil, .nil⟩
    | cons first _ ih =>
      obtain ⟨y, left, right⟩ := first
      obtain ⟨ys, lefts, rights⟩ := ih
      exact ⟨y :: ys, .cons left lefts, .cons right rights⟩
  · rintro ⟨ys, lefts, rights⟩
    induction lefts generalizing zs with
    | nil =>
      cases rights
      exact .nil
    | cons left _ ih =>
      obtain _ | ⟨right, rights⟩ := rights
      exact .cons ⟨_, left, right⟩ (ih rights)

theorem forall₂_imp_of_mem {R S : α → β → Prop} {xs : List α} {ys : List β}
    (h : List.Forall₂ R xs ys) (weaken : ∀ x ∈ xs, ∀ y, R x y → S x y) :
    List.Forall₂ S xs ys := by
  have both := (List.forall₂_and_left xs ys).mpr ⟨weaken, h⟩
  exact both.imp fun x y ⟨weakens, related⟩ => weakens y related

end List

/-- The second group has the terms of the first one, each exchanged for one that is related
to it, under the same tags. -/
structure Group.Termwise (R : Term → Term → Prop) (g g' : Group) : Prop where
  tags : g'.tags = g.tags
  terms : List.Forall₂ R g.terms g'.terms

/-- The second instance has the terms of the first one, each exchanged for one that is related
to it, and nothing else is different. -/
structure Instance.Termwise (R : Term → Term → Prop) (i j : Instance) : Prop where
  label : j.shortLabel = i.shortLabel
  groups : List.Forall₂ (Group.Termwise R) i.groups j.groups

section Termwise

variable {R S : Term → Term → Prop}

theorem Group.termwise_comp_iff {g k : Group} :
    g.Termwise (Relation.Comp R S) k ↔
      Relation.Comp (Group.Termwise R) (Group.Termwise S) g k := by
  constructor
  · rintro ⟨tags, terms⟩
    obtain ⟨middle, left, right⟩ := forall₂_comp_iff.mp terms
    exact ⟨⟨middle, g.tags⟩, ⟨rfl, left⟩, ⟨tags, right⟩⟩
  · rintro ⟨h, left, right⟩
    exact ⟨right.tags.trans left.tags, forall₂_comp_iff.mpr ⟨h.terms, left.terms, right.terms⟩⟩

/-- Two changes in a row change each term twice. -/
theorem Instance.termwise_comp_iff {i k : Instance} :
    i.Termwise (Relation.Comp R S) k ↔
      Relation.Comp (Instance.Termwise R) (Instance.Termwise S) i k := by
  constructor
  · rintro ⟨label, groups⟩
    have twice := groups.imp fun g k => Group.termwise_comp_iff.mp
    obtain ⟨middle, left, right⟩ := forall₂_comp_iff.mp twice
    exact ⟨⟨middle, i.shortLabel⟩, ⟨rfl, left⟩, ⟨label, right⟩⟩
  · rintro ⟨j, left, right⟩
    have twice := forall₂_comp_iff.mpr ⟨j.groups, left.groups, right.groups⟩
    exact ⟨right.label.trans left.label, twice.imp fun g k => Group.termwise_comp_iff.mpr⟩

variable {i j : Instance}

theorem Instance.Termwise.imp (h : i.Termwise R j)
    (weaken : ∀ t ∈ i.terms, ∀ t', R t t' → S t t') : i.Termwise S j := by
  refine ⟨h.label, forall₂_imp_of_mem h.groups fun g hg g' group => ?_⟩
  refine ⟨group.tags, forall₂_imp_of_mem group.terms fun t ht => ?_⟩
  exact weaken t (List.mem_flatMap.mpr ⟨g, hg, ht⟩)

theorem Instance.Termwise.flip (h : i.Termwise (flip R) j) : j.Termwise R i := by
  have groups := h.groups.imp fun g g' group =>
    (⟨group.tags.symm, group.terms.flip⟩ : Group.Termwise R g' g)
  exact ⟨h.label.symm, groups.flip⟩

theorem exists_termwise (h : ∀ t ∈ i.terms, ∃ t', R t t') : ∃ j, i.Termwise R j := by
  have changed : ∀ g ∈ i.groups, ∃ g', g.Termwise R g' := by
    intro g hg
    obtain ⟨terms, related⟩ :=
      exists_forall₂ fun t ht => h t (List.mem_flatMap.mpr ⟨g, hg, ht⟩)
    exact ⟨⟨terms, g.tags⟩, rfl, related⟩
  obtain ⟨groups, related⟩ := exists_forall₂ changed
  exact ⟨⟨groups, i.shortLabel⟩, rfl, related⟩

/-- A property of related terms goes over from all terms of the one instance to those of the
other. -/
theorem Instance.Termwise.forall_mem {P Q : Term → Prop} (h : i.Termwise R j)
    (step : ∀ t t', R t t' → P t → Q t') (all : ∀ t ∈ i.terms, P t) : ∀ t' ∈ j.terms, Q t' := by
  intro t' ht'
  obtain ⟨g', hg', ht'⟩ := List.mem_flatMap.mp ht'
  obtain ⟨g, hg, group⟩ := exists_of_forall₂ h.groups hg'
  obtain ⟨t, ht, related⟩ := exists_of_forall₂ group.terms ht'
  exact step t t' related (all t (List.mem_flatMap.mpr ⟨g, hg, ht⟩))

end Termwise

/-! ### Success -/

/-- An attempt on a part succeeds for the whole. -/
theorem attempt_eq_ok_iff {σ τ : Type} {a : Attempt σ Unit} {f : σ → τ} {x : τ} :
    (⟨a.result, f a.state⟩ : Attempt τ Unit) = ⟨.ok (), x⟩ ↔
      ∃ y, a = ⟨.ok (), y⟩ ∧ f y = x := by
  obtain ⟨result, state⟩ := a
  simp

section Success

variable {op : Operator} {n : Amount}

theorem Group.rescale_eq_ok_iff {g g' : Group} :
    g.rescale op n = ⟨.ok (), g'⟩ ↔ g.Termwise (fun t t' => t.apply op n = .ok t') g' := by
  refine (attempt_eq_ok_iff (f := fun terms => { g with terms })).trans ?_
  simp only [each_eq_ok_iff, Attempt.ofExcept_eq_ok_iff]
  constructor
  · rintro ⟨terms, changed, rfl⟩
    exact ⟨rfl, changed⟩
  · intro h
    exact ⟨g'.terms, h.terms, by rw [← h.tags]⟩

theorem rescale_eq_ok_iff {i j : Instance} :
    i.rescale op n = ⟨.ok (), j⟩ ↔ i.Termwise (fun t t' => t.apply op n = .ok t') j := by
  refine (attempt_eq_ok_iff (f := fun groups => { i with groups })).trans ?_
  change (∃ groups, Attempt.each (Group.rescale op n) i.groups = ⟨.ok (), groups⟩ ∧ _) ↔ _
  simp only [each_eq_ok_iff, Group.rescale_eq_ok_iff]
  constructor
  · rintro ⟨groups, changed, rfl⟩
    exact ⟨rfl, changed⟩
  · intro h
    exact ⟨j.groups, h.groups, by rw [← h.label]⟩

end Success

/-! ### Laws of terms -/

namespace ScalesExactly

variable {op : Operator} {m n : Int} {t t' u v : Term}

theorem scalable (h : ScalesExactly op n t t') : t.Scalable op n := by
  cases h with
  | @constant a b value =>
    show Amount.Fits (op.exact a.toInt n)
    rw [← value]
    exact Amount.fits_toInt b
  | @product d count _ value =>
    intro _
    rw [← value]
    exact Amount.fits_toInt count
  | quotient div _ =>
    intro mul
    rw [div] at mul
    cases mul

theorem unique (h : ScalesExactly op n t u) (h' : ScalesExactly op n t v) : u = v := by
  cases h with
  | constant value =>
    obtain ⟨value'⟩ := h'
    rw [Int64.toInt_inj.mp (value.trans value'.symm)]
  | product mul value =>
    obtain _ | ⟨_, value'⟩ | ⟨div, _⟩ := h'
    · rw [Int64.toInt_inj.mp (value.trans value'.symm)]
    · rw [mul] at div
      cases div
  | quotient div value =>
    obtain _ | ⟨mul, _⟩ | ⟨_, value'⟩ := h'
    · rw [div] at mul
      cases mul
    · rw [Int64.toInt_inj.mp (value.trans value'.symm)]

theorem isDice_eq (h : ScalesExactly op n t t') : t'.isDice = t.isDice := by
  cases h <;> rfl

/-- A quotient takes a product back. Dice are at least one die before, so the quotient is not
raised to one. -/
theorem undo (h : ScalesExactly .mul n t t') (nonzero : n ≠ 0)
    (some : ∀ d, t = .dice d → 1 ≤ d.count.toInt) : ScalesExactly .div n t' t := by
  have cancel (x : Int) : ⌊((x * n : Int) / n : ℚ)⌋ = x := by
    rw [← fdiv_eq_floor, Int.mul_fdiv_cancel x nonzero]
  cases h with
  | @constant a b value =>
    refine .constant ?_
    rw [value]
    exact (cancel a.toInt).symm
  | @product d count _ value =>
    have one := some d rfl
    refine .quotient (d := { d with count }) rfl ?_
    rw [value, cancel, max_eq_right one]
  | quotient div _ => cases div

/-- Two products in a row fit exactly if the product with both numbers does, since the first
one is nearer to zero. -/
theorem mul_comp_iff (positive : 1 ≤ n) :
    Relation.Comp (ScalesExactly .mul m) (ScalesExactly .mul n) t v ↔
      ScalesExactly .mul (m * n) t v := by
  have between {x : Int} {a : Amount} (value : a.toInt = x * (m * n)) :
      Amount.Fits (x * m) := by
    rw [← Int.mul_assoc] at value
    refine Amount.fits_of_between a ?_
    rw [value]
    obtain h | h := Int.le_total 0 (x * m)
    · exact .inr ⟨h, le_mul_of_one_le_right h positive⟩
    · exact .inl ⟨mul_le_of_one_le_right h positive, h⟩
  constructor
  · rintro ⟨u, left, right⟩
    cases left with
    | @constant a b value =>
      obtain ⟨value'⟩ := right
      refine .constant (value'.trans ?_)
      rw [value]
      exact Int.mul_assoc a.toInt m n
    | product _ value =>
      obtain _ | ⟨_, value'⟩ | ⟨div, _⟩ := right
      · refine .product rfl (value'.trans ?_)
        rw [value, Int.mul_assoc]
      · cases div
    | quotient div _ => cases div
  · intro h
    cases h with
    | @constant a b value =>
      have middle := Amount.toInt_ofInt_of_fits (between value)
      refine ⟨_, .constant middle, .constant (value.trans ?_)⟩
      rw [middle]
      exact (Int.mul_assoc a.toInt m n).symm
    | @product d count _ value =>
      have middle := Amount.toInt_ofInt_of_fits (between value)
      refine ⟨_, .product rfl middle, .product (d := { d with count := _ }) rfl (value.trans ?_)⟩
      rw [middle, Int.mul_assoc]
    | quotient div _ => cases div

/-- Two quotients in a row are one quotient. Where the first one would leave no dice, the second
one would not leave any of the one die that is kept. -/
theorem div_trans (nonneg : 0 ≤ m) (positive : 1 ≤ n) (left : ScalesExactly .div m t u)
    (right : ScalesExactly .div n u v) : ScalesExactly .div (m * n) t v := by
  have nested (x : Int) : ⌊((⌊(x / m : ℚ)⌋ : Int) / n : ℚ)⌋ = ⌊(x / (m * n : Int) : ℚ)⌋ := by
    rw [← fdiv_eq_floor, ← fdiv_eq_floor, ← fdiv_eq_floor,
      Int.fdiv_fdiv_eq_fdiv_mul x nonneg (by omega)]
  have kept (x : Int) : max 1 ⌊((max 1 x : Int) / n : ℚ)⌋ = max 1 ⌊(x / n : ℚ)⌋ := by
    rw [← fdiv_eq_floor, ← fdiv_eq_floor, Int.fdiv_eq_ediv_of_nonneg _ (by omega),
      Int.fdiv_eq_ediv_of_nonneg _ (by omega)]
    by_cases some : 1 ≤ x
    · rw [max_eq_right some]
    · have last : 1 / n ≤ 1 := Int.ediv_le_self n (by omega)
      have nothing : x / n ≤ 0 := Int.ediv_le_of_le_mul (by omega) (by omega)
      rw [max_eq_left (by omega : x ≤ 1), max_eq_left last, max_eq_left (by omega)]
  cases left with
  | @constant a b value =>
    obtain ⟨value'⟩ := right
    refine .constant (value'.trans ?_)
    rw [value]
    exact nested a.toInt
  | product mul _ => cases mul
  | @quotient d count _ value =>
    obtain _ | ⟨mul, _⟩ | ⟨_, value'⟩ := right
    · cases mul
    · refine .quotient rfl (value'.trans ?_)
      rw [value, kept, nested]

end ScalesExactly

theorem Term.apply_eq_ok_iff {op : Operator} (scale : op = .mul ∨ op = .div) {n : Amount}
    (nonzero : ¬ (op = .div ∧ n = 0)) {t t' : Term} (guard : 1 ≤ n.toInt ∨ t.isDice = false) :
    t.apply op n = .ok t' ↔ ScalesExactly op n.toInt t t' := by
  constructor
  · intro applied
    by_cases fits : t.Scalable op n.toInt
    · obtain ⟨u, applied', exactly⟩ := exists_apply scale nonzero guard fits
      rw [applied] at applied'
      cases applied'
      exact exactly
    · rw [apply_eq_overflow scale nonzero fits] at applied
      cases applied
  · intro h
    obtain ⟨u, applied, exactly⟩ := exists_apply scale nonzero guard h.scalable
    rw [applied, exactly.unique h]

/-! ### Laws of instances -/

section Apply

variable {op : Operator} (scale : op = .mul ∨ op = .div) {n : Amount} {i j : Instance}
include scale

/-- The operation succeeds exactly if it is begun and each term has an exact result. -/
theorem apply_eq_ok_iff :
    i.apply op n = ⟨.ok (), j⟩ ↔
      ¬ (op = .div ∧ n = 0) ∧ (1 ≤ n.toInt ∨ ∀ t ∈ i.terms, t.isDice = false) ∧
        i.Termwise (ScalesExactly op n.toInt) j := by
  rw [apply_scale_eq scale]
  by_cases zero : op = .div ∧ n = 0
  · simp [zero]
  · rw [if_neg zero, ← not_refused_iff]
    by_cases refused : n.toInt < 1 ∧ i.terms.any Term.isDice = true
    · rw [if_pos refused]
      refine iff_of_false (fun failed => ?_) fun h => h.2.1 refused
      cases congrArg Attempt.result failed
    · have guard := not_refused_iff.mp refused
      have term : ∀ t ∈ i.terms, ∀ t',
          t.apply op n = .ok t' ↔ ScalesExactly op n.toInt t t' := by
        intro t ht t'
        exact Term.apply_eq_ok_iff scale zero (guard.imp_right fun constants => constants t ht)
      rw [if_neg refused, rescale_eq_ok_iff]
      constructor
      · intro changed
        exact ⟨zero, refused, changed.imp fun t ht t' => (term t ht t').mp⟩
      · rintro ⟨-, -, exactly⟩
        exact exactly.imp fun t ht t' => (term t ht t').mpr

/-- Positive numbers are never refused. -/
theorem apply_eq_ok_iff_of_pos (positive : 1 ≤ n.toInt) :
    i.apply op n = ⟨.ok (), j⟩ ↔ i.Termwise (ScalesExactly op n.toInt) j := by
  have nonzero : ¬ (op = .div ∧ n = 0) := by
    rintro ⟨-, rfl⟩
    cases positive
  rw [apply_eq_ok_iff scale]
  exact ⟨fun h => h.2.2, fun h => ⟨nonzero, .inl positive, h⟩⟩

end Apply

/-- Quotients by positive numbers always succeed. -/
theorem exists_apply_div {n : Amount} (positive : 1 ≤ n.toInt) (i : Instance) :
    ∃ j, i.apply .div n = ⟨.ok (), j⟩ := by
  have nonzero : ¬ (Operator.div = .div ∧ n = 0) := by
    rintro ⟨-, rfl⟩
    cases positive
  have quotient : ∀ t ∈ i.terms, ∃ t', ScalesExactly .div n.toInt t t' := by
    intro t _
    have fits : t.Scalable .div n.toInt := by
      cases t with
      | constant c =>
        show Amount.Fits ⌊(c.toInt / n.toInt : ℚ)⌋
        rw [← fdiv_eq_floor]
        exact Amount.fits_fdiv c positive
      | dice d => exact fun mul => nomatch mul
    obtain ⟨t', -, exactly⟩ := exists_apply (.inr rfl) nonzero (.inl positive) fits
    exact ⟨t', exactly⟩
  obtain ⟨j, exactly⟩ := exists_termwise quotient
  exact ⟨j, (apply_eq_ok_iff_of_pos (.inr rfl) positive).mpr exactly⟩

/-- Two products succeed exactly if one does. -/
theorem apply_mul_apply_mul_iff {m n p : Amount} (hm : 1 ≤ m.toInt) (hn : 1 ≤ n.toInt)
    (product : p.toInt = m.toInt * n.toInt) {i k : Instance} :
    (∃ j, i.apply .mul m = ⟨.ok (), j⟩ ∧ j.apply .mul n = ⟨.ok (), k⟩) ↔
      i.apply .mul p = ⟨.ok (), k⟩ := by
  have hp : 1 ≤ p.toInt := product ▸ Int.mul_pos hm hn
  have twice : Relation.Comp (ScalesExactly .mul m.toInt) (ScalesExactly .mul n.toInt) =
      ScalesExactly .mul p.toInt := by
    rw [product]
    exact funext₂ fun t v => propext (ScalesExactly.mul_comp_iff hn)
  simp only [apply_eq_ok_iff_of_pos (.inl rfl), hm, hn, hp]
  rw [← twice]
  exact Instance.termwise_comp_iff.symm

theorem apply_div_apply_div {m n p : Amount} (hm : 1 ≤ m.toInt) (hn : 1 ≤ n.toInt)
    (product : p.toInt = m.toInt * n.toInt) {i j k : Instance}
    (first : i.apply .div m = ⟨.ok (), j⟩) (second : j.apply .div n = ⟨.ok (), k⟩) :
    i.apply .div p = ⟨.ok (), k⟩ := by
  have hp : 1 ≤ p.toInt := product ▸ Int.mul_pos hm hn
  have left := (apply_eq_ok_iff_of_pos (.inr rfl) hm).mp first
  have right := (apply_eq_ok_iff_of_pos (.inr rfl) hn).mp second
  have twice := Instance.termwise_comp_iff.mpr ⟨j, left, right⟩
  refine (apply_eq_ok_iff_of_pos (.inr rfl) hp).mpr (twice.imp fun t _ v => ?_)
  rintro ⟨u, quotient, quotient'⟩
  rw [product]
  exact quotient.div_trans (by omega) hn quotient'

theorem apply_div_of_apply_mul {n : Amount} {i j : Instance} (nonzero : n ≠ 0)
    (some : ∀ d, .dice d ∈ i.terms → 1 ≤ d.count.toInt) (h : i.apply .mul n = ⟨.ok (), j⟩) :
    j.apply .div n = ⟨.ok (), i⟩ := by
  have nonzero' : n.toInt ≠ 0 := fun zero => nonzero (Int64.toInt_inj.mp zero)
  obtain ⟨-, guard, exactly⟩ := (apply_eq_ok_iff (.inl rfl)).mp h
  have guard' : 1 ≤ n.toInt ∨ ∀ t ∈ j.terms, t.isDice = false :=
    guard.imp_right (exactly.forall_mem fun t t' exact constant => exact.isDice_eq.trans constant)
  have undone : i.Termwise (flip (ScalesExactly .div n.toInt)) j := by
    refine exactly.imp fun t ht t' product => ?_
    exact product.undo nonzero' fun d same => some d (same ▸ ht)
  exact (apply_eq_ok_iff (.inr rfl)).mpr ⟨fun zero => nonzero zero.2, guard', undone.flip⟩

/-- A product is undone by the quotient with the same number, unless that is zero. Two products
with positive numbers succeed exactly if one product with both does, and two quotients always
do, with the same result as one. -/
theorem factors_compose (i : Instance) :
    ((∀ d, .dice d ∈ i.terms → 1 ≤ d.count.toInt) → ∀ n j, n ≠ 0 →
      i.apply .mul n = ⟨.ok (), j⟩ → j.apply .div n = ⟨.ok (), i⟩) ∧
    ∀ m n : Amount, 1 ≤ m.toInt → 1 ≤ n.toInt → m.toInt * n.toInt ≤ Amount.greatest →
      (∀ k, (∃ j, i.apply .mul m = ⟨.ok (), j⟩ ∧ j.apply .mul n = ⟨.ok (), k⟩) ↔
        i.apply .mul (m * n) = ⟨.ok (), k⟩) ∧
      ∃ j k, i.apply .div m = ⟨.ok (), j⟩ ∧ j.apply .div n = ⟨.ok (), k⟩ ∧
        i.apply .div (m * n) = ⟨.ok (), k⟩ := by
  refine ⟨fun some n j nonzero => apply_div_of_apply_mul nonzero some, ?_⟩
  intro m n hm hn small
  have product : (m * n).toInt = m.toInt * n.toInt := by
    refine Amount.toInt_mul_of_fits ⟨?_, small⟩
    have positive : 0 < m.toInt * n.toInt := Int.mul_pos hm hn
    exact Int.le_trans (by decide) positive.le
  refine ⟨fun k => apply_mul_apply_mul_iff hm hn product, ?_⟩
  obtain ⟨j, first⟩ := exists_apply_div hm i
  obtain ⟨k, second⟩ := exists_apply_div hn j
  exact ⟨j, k, first, second, apply_div_apply_div hm hn product first second⟩

def tripled : Instance :=
  ⟨[⟨[.dice ⟨15, 6, -1⟩, .constant (-21)], ["fire".toList]⟩, ⟨[.dice ⟨3, 4, 0⟩], []⟩], true⟩

def sixfold : Instance :=
  ⟨[⟨[.dice ⟨30, 6, -1⟩, .constant (-42)], ["fire".toList]⟩, ⟨[.dice ⟨6, 4, 0⟩], []⟩], true⟩

theorem factors_diceAndPenalty :
    (∀ d, .dice d ∈ diceAndPenalty.terms → 1 ≤ d.count.toInt) ∧
      diceAndPenalty.apply .mul 3 = ⟨.ok (), tripled⟩ ∧
      tripled.apply .div 3 = ⟨.ok (), diceAndPenalty⟩ ∧
      (3 : Amount).toInt * (2 : Amount).toInt ≤ Amount.greatest ∧
      tripled.apply .mul 2 = ⟨.ok (), sixfold⟩ ∧
      diceAndPenalty.apply .mul (3 * 2) = ⟨.ok (), sixfold⟩ ∧
      ∃ j k, diceAndPenalty.apply .div 3 = ⟨.ok (), j⟩ ∧ j.apply .div 2 = ⟨.ok (), k⟩ ∧
        diceAndPenalty.apply .div (3 * 2) = ⟨.ok (), k⟩ := by
  obtain ⟨undo, compose⟩ := factors_compose diceAndPenalty
  have some : ∀ d, .dice d ∈ diceAndPenalty.terms → 1 ≤ d.count.toInt := by
    intro d hd
    have written : d = ⟨5, 6, -1⟩ ∨ d = ⟨1, 4, 0⟩ := by
      simpa [diceAndPenalty, Instance.terms] using hd
    obtain rfl | rfl := written <;> decide
  have small : (3 : Amount).toInt * (2 : Amount).toInt ≤ Amount.greatest := by decide
  have first : diceAndPenalty.apply .mul 3 = ⟨.ok (), tripled⟩ := rfl
  have second : tripled.apply .mul 2 = ⟨.ok (), sixfold⟩ := rfl
  obtain ⟨products, quotients⟩ := compose 3 2 (by decide) (by decide) small
  exact ⟨some, first, undo some 3 tripled (by decide) first, small, second,
    (products sixfold).mp ⟨tripled, first, second⟩, quotients⟩

end RuleText.Damage
