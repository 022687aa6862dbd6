import Mathlib.Data.Finset.Dedup
import RuleText.Damage.Instance
import RuleText.Proofs.Joining

/-!
# What operations on damage do

For each operation there is one statement of all that it can do when it succeeds, and
for multiplication and division also when it fails. What is said of instances
elsewhere, that they stay well formed and that nothing is lost, follows from these
statements without opening the operations again.
-/

namespace RuleText.Damage

theorem orOverflow_eq_ok {α : Type} {x : Option α} {a : α} :
    EvalError.orOverflow x = .ok a ↔ x = some a := by
  cases x with
  | none => simp [EvalError.orOverflow]
  | some b => simp [EvalError.orOverflow]

/-! ### Terms of the same shape -/

/-- Terms that are added: all constants, and dice with as many sides. -/
def Term.shape : Term → Option Amount
  | constant _ => none
  | dice d => some d.size

/-- The third term is the sum of the other two, which have the same shape. -/
inductive Joins : Term → Term → Term → Prop
  | constants {a b c : Amount} : c.toInt = a.toInt + b.toInt →
      Joins (.constant a) (.constant b) (.constant c)
  | dice {a b : Dice} {count modifier : Amount} : a.size = b.size →
      count.toInt = a.count.toInt + b.count.toInt →
      modifier.toInt = a.modifier.toInt + b.modifier.toInt →
      Joins (.dice a) (.dice b) (.dice { a with count, modifier })

theorem Joins.shape {t u v : Term} (h : Joins t u v) : v.shape = t.shape := by
  cases h with
  | constants _ => rfl
  | dice _ _ _ => rfl

theorem Joins.shape_eq {t u v : Term} (h : Joins t u v) : t.shape = u.shape := by
  cases h with
  | constants _ => rfl
  | dice size _ _ => exact congrArg some size

theorem joins_of_absorb {t u : Term} (h : (t.absorb u).result = .ok true) :
    Joins t u (t.absorb u).state := by
  cases t with
  | constant a =>
    cases u with
    | constant b =>
      cases sum : Amount.add? a b with
      | none => simp [Term.absorb, sum] at h
      | some c =>
        simp only [Term.absorb, sum]
        exact .constants (Amount.fit?_eq_some_iff.mp sum)
    | dice b => simp [Term.absorb] at h
  | dice a =>
    cases u with
    | constant b => simp [Term.absorb] at h
    | dice b =>
      by_cases size : a.size = b.size
      · cases count : Amount.add? a.count b.count with
        | none => simp [Term.absorb, size, count] at h
        | some k =>
          cases modifier : Amount.add? a.modifier b.modifier with
          | none => simp [Term.absorb, size, count, modifier] at h
          | some m =>
            simp only [Term.absorb, if_pos size, count, modifier]
            exact .dice size (Amount.fit?_eq_some_iff.mp count)
              (Amount.fit?_eq_some_iff.mp modifier)
      · simp [Term.absorb, size] at h

theorem shape_ne_of_absorb {t u : Term} (h : (t.absorb u).result = .ok false) :
    t.shape ≠ u.shape := by
  cases t with
  | constant a =>
    cases u with
    | constant b => cases sum : Amount.add? a b <;> simp [Term.absorb, sum] at h
    | dice b => simp [Term.shape]
  | dice a =>
    cases u with
    | constant b => simp [Term.shape]
    | dice b =>
      by_cases size : a.size = b.size
      · cases count : Amount.add? a.count b.count <;>
          cases modifier : Amount.add? a.modifier b.modifier <;>
          simp [Term.absorb, size, count, modifier] at h
      · simpa [Term.shape] using size

theorem absorb_of_joins {t u v : Term} (h : Joins t u v) : t.absorb u = ⟨.ok true, v⟩ := by
  cases h with
  | constants sum =>
    rw [Term.absorb, Amount.add?, Amount.fit?_eq_some_iff.mpr sum]
  | dice size count modifier =>
    rw [Term.absorb, if_pos size, Amount.add?, Amount.add?, Amount.fit?_eq_some_iff.mpr count,
      Amount.fit?_eq_some_iff.mpr modifier]

theorem absorb_of_shape_ne {t u : Term} (h : t.shape ≠ u.shape) : t.absorb u = ⟨.ok false, t⟩ := by
  cases t with
  | constant a =>
    cases u with
    | constant b => exact absurd rfl h
    | dice b => rfl
  | dice a =>
    cases u with
    | constant b => rfl
    | dice b =>
      have size : a.size ≠ b.size := fun same => h (congrArg some same)
      rw [Term.absorb, if_neg size]

/-- A term enters a list of terms by its shape. -/
theorem addTerm_eq_ok_iff {term : Term} {terms terms' : List Term} :
    Group.addTerm term terms = .ok terms' ↔ Enters Term.shape Joins term terms terms' := by
  induction terms generalizing terms' with
  | nil =>
    constructor
    · rintro ⟨⟩
      exact .atEnd
    · rintro ⟨⟩
      rfl
  | cons t terms ih =>
    rw [Group.addTerm]
    constructor
    · intro h
      cases outcome : (t.absorb term).result with
      | error e => simp [outcome] at h
      | ok joined =>
        cases joined with
        | true =>
          simp only [outcome, Except.ok.injEq] at h
          have joins := joins_of_absorb outcome
          exact h ▸ .joined joins.shape_eq joins
        | false =>
          simp only [outcome] at h
          obtain ⟨more, added, rfl⟩ := map_eq_ok.mp h
          exact .later (shape_ne_of_absorb outcome) (ih.mp added)
    · rintro (_ | ⟨_, joins⟩ | ⟨other, enters⟩)
      · simp only [absorb_of_joins joins]
      · simp only [absorb_of_shape_ne other]
        exact map_eq_ok.mpr ⟨_, ih.mpr enters, rfl⟩

/-- A term is added to one of its shape, or it stands at the end and no other has its
shape. -/
theorem of_addTerm {term : Term} {terms terms' : List Term}
    (h : Group.addTerm term terms = .ok terms') :
    (∃ before t t' after, terms = before ++ t :: after ∧ terms' = before ++ t' :: after ∧
      Joins t term t') ∨
    terms' = terms ++ [term] ∧ ∀ t ∈ terms, t.shape ≠ term.shape := by
  obtain ⟨before, t, t', after, same, same', -, joins⟩ | concat := (addTerm_eq_ok_iff.mp h).split
  · exact .inl ⟨before, t, t', after, same, same', joins⟩
  · exact .inr concat

/-! ### Groups -/

/-- The tags of a group as a set. -/
def Group.tagSet (g : Group) : Finset Text :=
  g.tags.toFinset

theorem sameTags_iff {g h : Group} : g.sameTags h = true ↔ g.tagSet = h.tagSet := by
  simp only [Group.sameTags, Group.tagSet, Finset.ext_iff, List.mem_toFinset, Bool.and_eq_true,
    List.all_eq_true, List.contains_iff_mem]
  exact ⟨fun same tag => ⟨same.1 tag, same.2 tag⟩,
    fun same => ⟨fun tag => (same tag).mp, fun tag => (same tag).mpr⟩⟩

/-- All terms of a list are added to others, one after the other. -/
theorem of_absorb {g other g' : Group} (h : g.absorb other = .ok g') :
    ∃ terms, other.terms.foldlM (fun terms t => Group.addTerm t terms) g.terms = .ok terms ∧
      g' = { g with terms } := by
  obtain ⟨terms, added, rfl⟩ := map_eq_ok.mp h
  exact ⟨terms, added, rfl⟩

/-- The third group has the tags of the first one, and its terms are those of the first
one after all terms of the second have entered them. -/
structure Group.Absorbs (g other g' : Group) : Prop where
  tags : g'.tags = g.tags
  terms : EnterAll Term.shape Joins g.terms other.terms g'.terms

theorem absorb_eq_ok_iff {g other g' : Group} :
    g.absorb other = .ok g' ↔ g.Absorbs other g' := by
  have added (terms : List Term) :
      other.terms.foldlM (fun terms t => Group.addTerm t terms) g.terms = .ok terms ↔
        EnterAll Term.shape Joins g.terms other.terms terms :=
    foldlM_eq_ok_iff_enterAll fun _ _ _ => addTerm_eq_ok_iff
  constructor
  · intro h
    obtain ⟨terms, folded, rfl⟩ := of_absorb h
    exact ⟨rfl, (added terms).mp folded⟩
  · intro h
    refine map_eq_ok.mpr ⟨g'.terms, (added _).mpr h.terms, ?_⟩
    rw [← h.tags]

/-- A group enters a list of groups by its set of tags. -/
theorem mergeGroup_eq_ok_iff {group : Group} {groups groups' : List Group} :
    Instance.mergeGroup group groups = .ok groups' ↔
      Enters Group.tagSet Group.Absorbs group groups groups' := by
  induction groups generalizing groups' with
  | nil =>
    constructor
    · rintro ⟨⟩
      exact .atEnd
    · rintro ⟨⟩
      rfl
  | cons g groups ih =>
    rw [Instance.mergeGroup]
    by_cases same : g.sameTags group = true
    · rw [if_pos same, map_eq_ok]
      constructor
      · rintro ⟨g', absorbed, rfl⟩
        exact .joined (sameTags_iff.mp same) (absorb_eq_ok_iff.mp absorbed)
      · rintro (_ | ⟨_, absorbs⟩ | ⟨other, _⟩)
        · exact ⟨_, absorb_eq_ok_iff.mpr absorbs, rfl⟩
        · exact absurd (sameTags_iff.mp same) other
    · rw [if_neg same, map_eq_ok]
      have other := mt sameTags_iff.mpr same
      constructor
      · rintro ⟨more, merged, rfl⟩
        exact .later other (ih.mp merged)
      · rintro (_ | ⟨again, _⟩ | ⟨_, enters⟩)
        · exact absurd again other
        · exact ⟨_, ih.mpr enters, rfl⟩

/-- A group is merged into another one, or it stands at the end. -/
theorem of_mergeGroup {group : Group} {groups groups' : List Group}
    (h : Instance.mergeGroup group groups = .ok groups') :
    (∃ before g g' after, groups = before ++ g :: after ∧ groups' = before ++ g' :: after ∧
      g.absorb group = .ok g') ∨
    groups' = groups ++ [group] := by
  obtain ⟨before, g, g', after, same, same', -, absorbs⟩ | ⟨concat, -⟩ :=
    (mergeGroup_eq_ok_iff.mp h).split
  · exact .inl ⟨before, g, g', after, same, same', absorb_eq_ok_iff.mpr absorbs⟩
  · exact .inr concat

/-- The groups of the second instance enter those of the first. -/
theorem merge_eq_ok_iff {i j k : Instance} :
    i.merge j = .ok k ↔ k.shortLabel = i.shortLabel ∧
      EnterAll Group.tagSet Group.Absorbs i.groups j.groups k.groups := by
  have merged (groups : List Group) :
      j.groups.foldlM (fun groups g => Instance.mergeGroup g groups) i.groups = .ok groups ↔
        EnterAll Group.tagSet Group.Absorbs i.groups j.groups groups :=
    foldlM_eq_ok_iff_enterAll fun _ _ _ => mergeGroup_eq_ok_iff
  constructor
  · intro h
    obtain ⟨groups, folded, rfl⟩ := map_eq_ok.mp h
    exact ⟨rfl, (merged groups).mp folded⟩
  · rintro ⟨label, enters⟩
    refine map_eq_ok.mpr ⟨k.groups, (merged _).mpr enters, ?_⟩
    rw [← label]

/-! ### Adding and subtracting numbers -/

/-- The number that is added: the opposite one for a subtraction. -/
def signed (op : Formula.Operator) (n : Int) : Int :=
  if op = .sub then -n else n

/-- The amount that is added. The least amount cannot be subtracted. -/
def signed? (op : Formula.Operator) (n : Amount) : Except EvalError Amount :=
  if op = .sub then EvalError.orOverflow (Amount.neg? n) else .ok n

theorem signed?_eq_ok_iff {op : Formula.Operator} {n m : Amount} :
    signed? op n = .ok m ↔ m.toInt = signed op n.toInt := by
  rw [signed?, signed]
  by_cases sub : op = .sub
  · rw [if_pos sub, if_pos sub, orOverflow_eq_ok]
    exact Amount.fit?_eq_some_iff
  · rw [if_neg sub, if_neg sub, Int64.toInt_inj, Except.ok.injEq]
    exact eq_comm

/-- The second term is the first one with a number added to its constant or modifier. -/
inductive Offsets (n : Int) : Term → Term → Prop
  | constant {a b : Amount} : b.toInt = a.toInt + n → Offsets n (.constant a) (.constant b)
  | dice {d : Dice} {modifier : Amount} : modifier.toInt = d.modifier.toInt + n →
      Offsets n (.dice d) (.dice { d with modifier })

theorem offset_eq_ok_iff {n : Amount} {t t' : Term} :
    t.offset n = .ok t' ↔ Offsets n.toInt t t' := by
  constructor
  · intro h
    cases t with
    | constant a =>
      obtain ⟨b, sum, rfl⟩ := Option.map_eq_some_iff.mp (orOverflow_eq_ok.mp h)
      exact .constant (Amount.fit?_eq_some_iff.mp sum)
    | dice d =>
      obtain ⟨m, sum, rfl⟩ := Option.map_eq_some_iff.mp (orOverflow_eq_ok.mp h)
      exact .dice (Amount.fit?_eq_some_iff.mp sum)
  · intro h
    cases h with
    | constant sum =>
      rw [Term.offset, Amount.add?, Amount.fit?_eq_some_iff.mpr sum]
      rfl
    | dice sum =>
      rw [Term.offset, Amount.add?, Amount.fit?_eq_some_iff.mpr sum]
      rfl

section Shift

variable {op : Formula.Operator} {n : Amount} {i i' : Instance}

theorem term_apply_eq (sum : op = .add ∨ op = .sub) (t : Term) :
    t.apply op n = signed? op n >>= fun m => t.offset m := by
  obtain rfl | rfl := sum <;> rfl

theorem offsets_of_apply {t t' : Term} (sum : op = .add ∨ op = .sub) (h : t.apply op n = .ok t') :
    Offsets (signed op n.toInt) t t' := by
  rw [term_apply_eq sum] at h
  obtain ⟨m, number, h⟩ := bind_eq_ok.mp h
  rw [← signed?_eq_ok_iff.mp number]
  exact offset_eq_ok_iff.mp h

/-- One term, which takes in the numbers that are added. -/
def Instance.Lone (i : Instance) : Prop :=
  ∃ t tags, i.groups = [⟨[t], tags⟩]

theorem shift_of_lone {t : Term} {tags : List Text} (lone : i.groups = [⟨[t], tags⟩]) :
    i.shift op n = (t.apply op n).map fun t => { i with groups := [⟨[t], tags⟩] } := by
  rw [Instance.shift, lone]

/-- Where there is no lone term, the number becomes a constant. -/
theorem shift_of_not_lone (several : ¬ i.Lone) :
    i.shift op n = signed? op n >>= fun m =>
      (Instance.mergeGroup (.ofTerm (.constant m)) i.groups).map fun groups =>
        { i with groups } := by
  have behind (m : Amount) :
      (do let groups ← Instance.mergeGroup (.ofTerm (.constant m)) i.groups
          return { i with groups }) =
        (Instance.mergeGroup (.ofTerm (.constant m)) i.groups).map fun groups =>
          { i with groups } := by
    cases Instance.mergeGroup (.ofTerm (.constant m)) i.groups <;> rfl
  rw [Instance.shift]
  split
  · next t tags lone => exact absurd ⟨t, tags, lone⟩ several
  · rw [signed?]
    split <;> simp only [behind]

/-- A lone term takes a number in; otherwise the number is merged as a constant. -/
theorem of_shift (sum : op = .add ∨ op = .sub) (h : i.shift op n = .ok i') :
    (∃ t tags t', i.groups = [⟨[t], tags⟩] ∧ i' = { i with groups := [⟨[t'], tags⟩] } ∧
      Offsets (signed op n.toInt) t t') ∨
    ∃ c groups, c.toInt = signed op n.toInt ∧
      Instance.mergeGroup (.ofTerm (.constant c)) i.groups = .ok groups ∧
      i' = { i with groups } := by
  by_cases lone : i.Lone
  · obtain ⟨t, tags, lone⟩ := lone
    rw [shift_of_lone lone] at h
    obtain ⟨t', applied, rfl⟩ := map_eq_ok.mp h
    exact .inl ⟨t, tags, t', lone, rfl, offsets_of_apply sum applied⟩
  · rw [shift_of_not_lone lone] at h
    obtain ⟨m, number, h⟩ := bind_eq_ok.mp h
    obtain ⟨groups, merged, rfl⟩ := map_eq_ok.mp h
    exact .inr ⟨m, groups, signed?_eq_ok_iff.mp number, merged, rfl⟩

/-- Adding or subtracting happens as a whole or not at all. -/
theorem apply_shift_eq (sum : op = .add ∨ op = .sub) (n : Amount) (i : Instance) :
    i.apply op n = Attempt.ofExcept i (i.shift op n) := by
  obtain rfl | rfl := sum <;> rfl

theorem toExcept_apply (sum : op = .add ∨ op = .sub) :
    (i.apply op n).toExcept = i.shift op n := by
  rw [apply_shift_eq sum]
  cases i.shift op n <;> rfl

theorem state_apply (sum : op = .add ∨ op = .sub) :
    (i.apply op n).state = i ∨ i.shift op n = .ok (i.apply op n).state := by
  rw [apply_shift_eq sum]
  cases i.shift op n with
  | error e => exact .inl rfl
  | ok i' => exact .inr rfl

end Shift

/-! ### Multiplying and dividing -/

/-- The second term is what a product or quotient makes of the first one: another
constant, or another number of the same dice, of which at least one is left where a
positive number of dice is multiplied or divided by a positive number. -/
inductive Scales (n : Amount) : Term → Term → Prop
  | constant (a b : Amount) : Scales n (.constant a) (.constant b)
  | dice {d : Dice} {count : Amount} :
      (1 ≤ d.count.toInt → 1 ≤ n.toInt → 1 ≤ count.toInt) →
      Scales n (.dice d) (.dice { d with count })

theorem scales_of_apply {op : Formula.Operator} {n : Amount} {t t' : Term}
    (scale : op = .mul ∨ op = .div) (h : t.apply op n = .ok t') : Scales n t t' := by
  cases t with
  | constant a =>
    rcases scale with rfl | rfl
    · obtain ⟨b, -, rfl⟩ := Option.map_eq_some_iff.mp (orOverflow_eq_ok.mp h)
      exact .constant a b
    · obtain ⟨b, -, rfl⟩ := map_eq_ok.mp h
      exact .constant a b
  | dice d =>
    rcases scale with rfl | rfl
    · obtain ⟨k, product, rfl⟩ := Option.map_eq_some_iff.mp (orOverflow_eq_ok.mp h)
      have count : k.toInt = d.count.toInt * n.toInt := Amount.fit?_eq_some_iff.mp product
      refine .dice fun some positive => ?_
      rw [count]
      exact Int.mul_pos some positive
    · obtain ⟨k, -, rfl⟩ := map_eq_ok.mp h
      refine .dice fun _ _ => ?_
      by_cases few : k.toInt < 1
      · rw [if_pos few]
        decide
      · rw [if_neg few]
        exact Int.not_lt.mp few

/-- A change of the members of a list, up to the first that fails, changes each of
them or leaves it. -/
theorem forall₂_each {σ : Type} {R : σ → σ → Prop} {change : σ → Attempt σ Unit}
    (same : ∀ x, R x x) (changed : ∀ x, R x (change x).state) (xs : List σ) :
    List.Forall₂ R xs (Attempt.each change xs).state := by
  induction xs with
  | nil => exact .nil
  | cons x xs ih =>
    rw [Attempt.each]
    cases (change x).result with
    | error e => exact .cons (changed x) (List.forall₂_same.mpr fun y _ => same y)
    | ok _ => exact .cons (changed x) ih

/-- Some terms of the group have been changed by the operator. -/
def Rescales (op : Formula.Operator) (n : Amount) (g g' : Group) : Prop :=
  List.Forall₂ (fun t t' => t' = t ∨ t.apply op n = .ok t') g.terms g'.terms

theorem rescales_rescale (op : Formula.Operator) (n : Amount) (i : Instance) :
    List.Forall₂ (Rescales op n) i.groups (i.rescale op n).state.groups := by
  apply forall₂_each
  · exact fun g => List.forall₂_same.mpr fun t _ => .inl rfl
  · intro g
    apply forall₂_each
    · exact fun t => .inl rfl
    · intro t
      cases applied : t.apply op n with
      | error e => exact .inl rfl
      | ok t' => exact .inr rfl

/-- Where `*` and `/` come down to changing all terms. -/
theorem apply_scale_eq {op : Formula.Operator} (scale : op = .mul ∨ op = .div) (n : Amount)
    (i : Instance) :
    i.apply op n =
      if op = .div ∧ n = 0 then ⟨.error .divisionByZero, i⟩
      else if n.toInt < 1 ∧ i.terms.any Term.isDice then
        ⟨.error (.invalidOperands op ("damage ".toList ++ i.text)
          ("number ".toList ++ Text.ofInt n.toInt)), i⟩
      else i.rescale op n := by
  obtain rfl | rfl := scale <;> rfl

/-- Numbers that are not positive are refused for dice only. -/
theorem not_refused_iff {n : Amount} {i : Instance} :
    ¬ (n.toInt < 1 ∧ i.terms.any Term.isDice = true) ↔
      1 ≤ n.toInt ∨ ∀ t ∈ i.terms, t.isDice = false := by
  rw [not_and_or, Int.not_lt, Bool.not_eq_true, List.any_eq_false]
  simp

/-- Multiplying and dividing changes some of the terms. Where there are dice, it is by
a positive number. -/
theorem of_apply {op : Formula.Operator} {n : Amount} {i : Instance}
    (scale : op = .mul ∨ op = .div) :
    (i.apply op n).state = i ∨
      (1 ≤ n.toInt ∨ ∀ t ∈ i.terms, t.isDice = false) ∧
        List.Forall₂ (Rescales op n) i.groups (i.apply op n).state.groups := by
  rw [apply_scale_eq scale]
  by_cases zero : op = .div ∧ n = 0
  · rw [if_pos zero]
    exact .inl rfl
  · rw [if_neg zero]
    by_cases refused : n.toInt < 1 ∧ i.terms.any Term.isDice
    · rw [if_pos refused]
      exact .inl rfl
    · rw [if_neg refused]
      exact .inr ⟨not_refused_iff.mp refused, rescales_rescale op n i⟩

end RuleText.Damage
