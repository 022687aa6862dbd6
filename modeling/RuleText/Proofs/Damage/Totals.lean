import Mathlib.Algebra.BigOperators.Group.List.Basic
import RuleText.Proofs.Damage.Evaluation

/-!
# Totals of damage

A total sums a measure of terms over all groups. Two measures matter: the number of
dice of each size, and the constants and modifiers. Both are additive, which is all
that is needed to follow them through addition and subtraction, wherever a number or
a term ends up.
-/

namespace RuleText.Damage

/-- The dice of a term, each die counted with the weight of its size. -/
def Term.diceSum (weight : Amount → Int) : Term → Int
  | constant _ => 0
  | dice d => d.count.toInt * weight d.size

/-- The constant or the modifier of a term. -/
def Term.flat : Term → Int
  | constant c => c.toInt
  | dice d => d.modifier.toInt

/-- The sum of a measure over all terms of the groups. -/
def total (m : Term → Int) (groups : List Group) : Int :=
  ((groups.flatMap Group.terms).map m).sum

/-- The dice of an instance, each die counted with the weight of its size. -/
def Instance.diceSum (weight : Amount → Int) (i : Instance) : Int :=
  total (Term.diceSum weight) i.groups

/-- The sum of all constants and modifiers of an instance. -/
def Instance.flat (i : Instance) : Int :=
  total Term.flat i.groups

/-- A measure that adds up where terms are added, and counts a constant with `unit`. -/
structure Additive (unit : Int) (m : Term → Int) : Prop where
  constant : ∀ a : Amount, m (.constant a) = unit * a.toInt
  joins : ∀ {t u v : Term}, Joins t u v → m v = m t + m u
  offsets : ∀ {n : Int} {t t' : Term}, Offsets n t t' → m t' = m t + unit * n

theorem additive_diceSum (weight : Amount → Int) : Additive 0 (Term.diceSum weight) where
  constant a := (Int.zero_mul a.toInt).symm
  joins h := by
    cases h with
    | constants _ => rfl
    | @dice a b count modifier size counts _ =>
      show count.toInt * weight a.size =
        a.count.toInt * weight a.size + b.count.toInt * weight b.size
      rw [counts, size, Int.add_mul]
  offsets h := by
    rw [Int.zero_mul, Int.add_zero]
    cases h with
    | constant _ => rfl
    | dice _ => rfl

theorem additive_flat : Additive 1 Term.flat where
  constant a := (Int.one_mul a.toInt).symm
  joins h := by
    cases h with
    | constants sum => exact sum
    | dice _ _ sum => exact sum
  offsets h := by
    rw [Int.one_mul]
    cases h with
    | constant sum => exact sum
    | dice sum => exact sum

/-! ### Plain numbers -/

/-- If the value is a number, it is an integer. -/
def Value.Integral (v : Value) : Prop :=
  ∀ n, v = .number n → ∃ a, n = .int a

theorem integral_int (a : Amount) : (Value.number (.int a)).Integral := by
  intro n same
  cases same
  exact ⟨a, rfl⟩

theorem integral_damage (i : Instance) : (Value.damage i).Integral := by
  intro n same
  cases same

theorem integral_tuple (items : List Value) : (Value.tuple items).Integral := by
  intro n same
  cases same

theorem mul_signed (op : Formula.Operator) (u n : Int) : u * signed op n = signed op (u * n) := by
  unfold signed
  by_cases sub : op = .sub
  · rw [if_pos sub, if_pos sub, Int.mul_neg]
  · rw [if_neg sub, if_neg sub]

theorem of_arithmetic {op : Formula.Operator} {x y : Amount} {z : Number}
    (sum : op = .add ∨ op = .sub) (h : arithmetic op (.int x) (.int y) = .ok z) :
    ∃ c, z = .int c ∧ c.toInt = x.toInt + signed op y.toInt := by
  obtain rfl | rfl := sum
  · obtain ⟨c, fits, rfl⟩ := Option.map_eq_some_iff.mp (orOverflow_eq_ok.mp h)
    exact ⟨c, rfl, Amount.fit?_eq_some_iff.mp fits⟩
  · obtain ⟨c, fits, rfl⟩ := Option.map_eq_some_iff.mp (orOverflow_eq_ok.mp h)
    exact ⟨c, rfl, Amount.fit?_eq_some_iff.mp fits⟩

/-! ### Totals of groups -/

section Total

variable {unit : Int} {m : Term → Int} {groups groups' : List Group}

@[simp] theorem total_nil : total m [] = 0 := rfl

@[simp] theorem total_cons (g : Group) :
    total m (g :: groups) = (g.terms.map m).sum + total m groups := by
  simp [total]

@[simp] theorem total_append : total m (groups ++ groups') = total m groups + total m groups' := by
  simp [total]

@[simp] theorem total_ofTerm (t : Term) : total m [.ofTerm t] = m t := by
  simp [Group.ofTerm]

theorem total_eq_sum (groups : List Group) :
    total m groups = (groups.map fun g => (g.terms.map m).sum).sum := by
  induction groups with
  | nil => rfl
  | cons g groups ih => rw [total_cons, ih, List.map_cons, List.sum_cons]

theorem total_eq_of_terms (same : groups'.map Group.terms = groups.map Group.terms) :
    total m groups' = total m groups := by
  rw [total, total, List.flatMap_def, List.flatMap_def, same]

/-- The total of the sum of two measures. -/
theorem total_add (m' : Term → Int) :
    total (fun t => m t + m' t) groups = total m groups + total m' groups :=
  List.sum_map_add

variable (hm : Additive unit m)
include hm

theorem Additive.total_int (a : Amount) :
    total m (Value.number (.int a)).groups = unit * a.toInt :=
  (total_ofTerm (.constant a)).trans (hm.constant a)

theorem Additive.addTerm {term : Term} {terms terms' : List Term}
    (h : Group.addTerm term terms = .ok terms') :
    (terms'.map m).sum = (terms.map m).sum + m term := by
  obtain ⟨before, t, t', after, rfl, rfl, joins⟩ | ⟨rfl, -⟩ := of_addTerm h
  · have added : m t' = m t + m term := hm.joins joins
    simp only [List.map_append, List.map_cons, List.sum_append, List.sum_cons]
    omega
  · simp

theorem Additive.absorb {g other g' : Group} (h : g.absorb other = .ok g') :
    (g'.terms.map m).sum = (g.terms.map m).sum + (other.terms.map m).sum := by
  obtain ⟨terms, folded, rfl⟩ := of_absorb h
  apply foldlM_adds (fun terms => (terms.map m).sum) folded
  intro terms t terms' added
  exact hm.addTerm added

theorem Additive.mergeGroup {group : Group} (h : Instance.mergeGroup group groups = .ok groups') :
    total m groups' = total m groups + (group.terms.map m).sum := by
  obtain ⟨before, g, g', after, rfl, rfl, absorbed⟩ | rfl := of_mergeGroup h
  · have absorbs := hm.absorb absorbed
    simp only [total_append, total_cons]
    omega
  · simp

theorem Additive.merge {i j k : Instance} (h : i.merge j = .ok k) :
    total m k.groups = total m i.groups + total m j.groups := by
  obtain ⟨groups, folded, rfl⟩ := map_eq_ok.mp h
  rw [total_eq_sum j.groups]
  apply foldlM_adds (total m) folded
  intro groups g groups' merged
  exact hm.mergeGroup merged

/-- A number counts with its sign, whether a term takes it in or it becomes a constant. -/
theorem Additive.shift {op : Formula.Operator} {n : Amount} {i i' : Instance}
    (sum : op = .add ∨ op = .sub) (h : i.shift op n = .ok i') :
    total m i'.groups = total m i.groups + unit * signed op n.toInt := by
  obtain ⟨t, tags, t', lone, rfl, offsets⟩ | ⟨c, groups, value, merged, rfl⟩ := of_shift sum h
  · have moved := hm.offsets offsets
    rw [lone]
    simpa using moved
  · rw [hm.mergeGroup merged, ← value]
    have constant := hm.constant c
    simpa [Group.ofTerm] using constant

/-- The right operand counts with its sign. -/
theorem Additive.combines {op : Formula.Operator} {a b v : Value} (sum : op = .add ∨ op = .sub)
    (ha : a.Integral) (hb : b.Integral) (h : Combines op a b v) :
    v.Integral ∧ total m v.groups = total m a.groups + signed op (total m b.groups) := by
  cases h with
  | @numbers x y z result =>
    obtain ⟨x, rfl⟩ := ha _ rfl
    obtain ⟨y, rfl⟩ := hb _ rfl
    obtain ⟨z, rfl, value⟩ := of_arithmetic sum result
    refine ⟨integral_int z, ?_⟩
    rw [hm.total_int, hm.total_int, hm.total_int, value, Int.mul_add, mul_signed]
  | @damageNumber i i' n applied =>
    obtain ⟨n, rfl⟩ := hb _ rfl
    rw [toExcept_apply sum] at applied
    refine ⟨integral_damage i', ?_⟩
    rw [hm.total_int, ← mul_signed]
    exact hm.shift sum applied
  | @numberDamage i i' n commutes applied =>
    obtain ⟨n, rfl⟩ := ha _ rfl
    obtain rfl : op = .add := sum.resolve_right fun sub => by simp [sub] at commutes
    rw [toExcept_apply sum] at applied
    refine ⟨integral_damage i', ?_⟩
    rw [hm.total_int]
    have shifted : total m i'.groups = total m i.groups + unit * n.toInt := hm.shift sum applied
    show total m i'.groups = unit * n.toInt + total m i.groups
    omega
  | @damages i j k add merged =>
    subst add
    exact ⟨integral_damage k, hm.merge merged⟩

end Total

end RuleText.Damage
