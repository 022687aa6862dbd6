import Mathlib.Data.List.Nodup
import RuleText.Proofs.Damage.Operations

/-!
# Well-formed damage

In a well-formed instance no group is empty, all dice have at least one die with at
least one side, and within a group no two terms have the same shape: there is at most
one constant, and no two dice have as many sides.

Every operation keeps this, also one that fails after a part of its changes: terms
keep their shape, multiplication and division leave at least one die of dice, and a
term whose shape is in the group already is added to the term that has it
(`wellFormed_run`).
-/

namespace RuleText.Damage

/-- Dice have at least one die and at least one side. -/
def Term.Positive : Term → Prop
  | constant _ => True
  | dice d => 1 ≤ d.count.toInt ∧ 1 ≤ d.size.toInt

/-- Terms that can stand in one group: at most one of them is a constant, and dice have
different numbers of sides. -/
structure TermsWellFormed (terms : List Term) : Prop where
  ne_nil : terms ≠ []
  positive : ∀ t ∈ terms, t.Positive
  nodup : (terms.map Term.shape).Nodup

/-- An instance with at least one group, in which all groups are well formed. -/
structure Instance.WellFormed (i : Instance) : Prop where
  ne_nil : i.groups ≠ []
  terms : ∀ g ∈ i.groups, TermsWellFormed g.terms

instance : DecidablePred Term.Positive
  | .constant _ => inferInstanceAs (Decidable True)
  | .dice _ => inferInstanceAs (Decidable (_ ∧ _))

instance (terms : List Term) : Decidable (TermsWellFormed terms) :=
  decidable_of_iff (terms ≠ [] ∧ (∀ t ∈ terms, t.Positive) ∧ (terms.map Term.shape).Nodup)
    ⟨fun ⟨nonempty, positive, nodup⟩ => ⟨nonempty, positive, nodup⟩,
      fun h => ⟨h.ne_nil, h.positive, h.nodup⟩⟩

instance (i : Instance) : Decidable i.WellFormed :=
  decidable_of_iff (i.groups ≠ [] ∧ ∀ g ∈ i.groups, TermsWellFormed g.terms)
    ⟨fun ⟨nonempty, terms⟩ => ⟨nonempty, terms⟩, fun h => ⟨h.ne_nil, h.terms⟩⟩

/-! ### Adding terms and groups -/

theorem Joins.positive {t u v : Term} (h : Joins t u v) (ht : t.Positive) (hu : u.Positive) :
    v.Positive := by
  cases h with
  | constants _ => trivial
  | dice size count modifier =>
    refine ⟨?_, ht.2⟩
    have left := ht.1
    have right := hu.1
    rw [count]
    omega

theorem termsWellFormed_singleton {t : Term} (h : t.Positive) : TermsWellFormed [t] where
  ne_nil := List.cons_ne_nil t []
  positive := by simpa using h
  nodup := List.nodup_singleton _

theorem forall_mem_replace {α : Type} {P : α → Prop} {before after : List α} {x x' : α}
    (h : ∀ y ∈ before ++ x :: after, P y) (hx' : P x') : ∀ y ∈ before ++ x' :: after, P y := by
  obtain ⟨left, right⟩ := List.forall_mem_append.mp h
  obtain ⟨-, right⟩ := List.forall_mem_cons.mp right
  exact List.forall_mem_append.mpr ⟨left, List.forall_mem_cons.mpr ⟨hx', right⟩⟩

theorem forall_mem_concat {α : Type} {P : α → Prop} {xs : List α} {x : α}
    (h : ∀ y ∈ xs, P y) (hx : P x) : ∀ y ∈ xs ++ [x], P y :=
  List.forall_mem_append.mpr ⟨h, List.forall_mem_singleton.mpr hx⟩

/-- A term may be exchanged for one of the same shape. -/
theorem TermsWellFormed.replace {before after : List Term} {t t' : Term}
    (h : TermsWellFormed (before ++ t :: after)) (shape : t'.shape = t.shape)
    (positive : t'.Positive) : TermsWellFormed (before ++ t' :: after) where
  ne_nil := by simp
  positive := forall_mem_replace h.positive positive
  nodup := by
    have nodup := h.nodup
    rw [List.map_append, List.map_cons] at nodup ⊢
    rwa [shape]

theorem termsWellFormed_addTerm {term : Term} {terms terms' : List Term}
    (h : TermsWellFormed terms) (positive : term.Positive)
    (added : Group.addTerm term terms = .ok terms') : TermsWellFormed terms' := by
  rcases of_addTerm added with ⟨before, t, t', after, rfl, rfl, joins⟩ | ⟨rfl, others⟩
  · have ht := h.positive t (List.mem_append_right _ List.mem_cons_self)
    exact h.replace joins.shape (joins.positive ht positive)
  · refine ⟨by simp, forall_mem_concat h.positive positive, ?_⟩
    rw [List.map_append, List.nodup_append]
    refine ⟨h.nodup, List.nodup_singleton _, ?_⟩
    intro shape hs shape' hs'
    obtain ⟨t, ht, rfl⟩ := List.mem_map.mp hs
    obtain rfl : shape' = term.shape := by simpa using hs'
    exact others t ht

theorem termsWellFormed_absorb {g other g' : Group} (h : TermsWellFormed g.terms)
    (hother : TermsWellFormed other.terms) (absorbed : g.absorb other = .ok g') :
    TermsWellFormed g'.terms := by
  obtain ⟨terms, folded, rfl⟩ := of_absorb absorbed
  apply foldlM_keeps folded h
  intro t ht terms terms' hterms added
  exact termsWellFormed_addTerm hterms (hother.positive t ht) added

namespace Instance.WellFormed

variable {i j i' : Instance}

theorem positive (hi : i.WellFormed) {t : Term} (ht : t ∈ i.terms) :
    t.Positive := by
  obtain ⟨g, hg, ht⟩ := List.mem_flatMap.mp ht
  exact (hi.terms g hg).positive t ht

theorem ofTerm {t : Term} (h : t.Positive) : (Instance.ofTerm t).WellFormed where
  ne_nil := List.cons_ne_nil _ _
  terms := List.forall_mem_singleton.mpr (termsWellFormed_singleton h)

theorem mergeGroup {group : Group} {groups : List Group} (hi : i.WellFormed)
    (hg : TermsWellFormed group.terms) (merged : Instance.mergeGroup group i.groups = .ok groups) :
    ({ i with groups } : Instance).WellFormed := by
  obtain ⟨before, g, g', after, same, rfl, absorbed⟩ | rfl := of_mergeGroup merged
  · have terms := hi.terms
    rw [same] at terms
    have absorbs : TermsWellFormed g'.terms :=
      termsWellFormed_absorb (terms g (by simp)) hg absorbed
    exact ⟨by simp, forall_mem_replace terms absorbs⟩
  · exact ⟨by simp, forall_mem_concat hi.terms hg⟩

theorem merge (hi : i.WellFormed) (hj : j.WellFormed) (merged : i.merge j = .ok i') :
    i'.WellFormed := by
  obtain ⟨groups, folded, rfl⟩ := map_eq_ok.mp merged
  apply foldlM_keeps (P := fun groups => ({ i with groups } : Instance).WellFormed) folded hi
  intro g hg groups groups' hgroups merged
  exact hgroups.mergeGroup (hj.terms g hg) merged

theorem append (hi : i.WellFormed) (hj : j.WellFormed) : (i.append j).WellFormed where
  ne_nil := List.append_ne_nil_of_left_ne_nil hi.ne_nil _
  terms := List.forall_mem_append.mpr ⟨hi.terms, hj.terms⟩

/-- Tags do not matter. -/
theorem of_terms (hi : i.WellFormed) (same : i'.groups.map Group.terms = i.groups.map Group.terms) :
    i'.WellFormed where
  ne_nil := by
    intro empty
    rw [empty] at same
    exact hi.ne_nil (List.map_eq_nil_iff.mp same.symm)
  terms g hg := by
    have hterms : g.terms ∈ i'.groups.map Group.terms := List.mem_map_of_mem hg
    rw [same] at hterms
    obtain ⟨g', hg', terms⟩ := List.mem_map.mp hterms
    rw [← terms]
    exact hi.terms g' hg'

theorem addTag (hi : i.WellFormed) (tag : Text) : (i.addTag tag).WellFormed := by
  apply hi.of_terms
  simp [Instance.addTag]

theorem setShortLabel (hi : i.WellFormed) (shortLabel : Bool) :
    ({ i with shortLabel } : Instance).WellFormed :=
  ⟨hi.ne_nil, hi.terms⟩

end Instance.WellFormed

/-! ### Numbers -/

theorem Offsets.positive {n : Int} {t t' : Term} (h : Offsets n t t') (ht : t.Positive) :
    t'.Positive := by
  cases h with
  | constant _ => trivial
  | dice _ => exact ht

theorem Instance.WellFormed.shift {op : Formula.Operator} {n : Amount} {i i' : Instance}
    (sum : op = .add ∨ op = .sub) (hi : i.WellFormed) (shifted : i.shift op n = .ok i') :
    i'.WellFormed := by
  rcases of_shift sum shifted with ⟨t, tags, t', lone, rfl, offsets⟩ | ⟨c, groups, -, merged, rfl⟩
  · have ht : t.Positive := (hi.terms ⟨[t], tags⟩ (by simp [lone])).positive t (by simp)
    have lone' : TermsWellFormed [t'] := termsWellFormed_singleton (offsets.positive ht)
    exact ⟨List.cons_ne_nil _ _, List.forall_mem_singleton.mpr lone'⟩
  · have constant : TermsWellFormed (Group.ofTerm (.constant c)).terms :=
      termsWellFormed_singleton trivial
    exact hi.mergeGroup constant merged

theorem Scales.shape {n : Amount} {t t' : Term} (h : Scales n t t') : t'.shape = t.shape := by
  cases h with
  | constant _ _ => rfl
  | dice _ => rfl

theorem Scales.positive {n : Amount} {t t' : Term} (h : Scales n t t')
    (guard : 1 ≤ n.toInt ∨ t.isDice = false) (ht : t.Positive) : t'.Positive := by
  cases h with
  | constant _ _ => trivial
  | dice count =>
    rcases guard with positive | constant
    · exact ⟨count ht.1 positive, ht.2⟩
    · cases constant

section Rescale

variable {op : Formula.Operator} {n : Amount} (scale : op = .mul ∨ op = .div)
include scale

theorem shape_of_change {t t' : Term} (change : t' = t ∨ t.apply op n = .ok t') :
    t'.shape = t.shape := by
  rcases change with rfl | applied
  · rfl
  · exact (scales_of_apply scale applied).shape

theorem positive_of_change {t t' : Term} (change : t' = t ∨ t.apply op n = .ok t')
    (guard : 1 ≤ n.toInt ∨ t.isDice = false) (ht : t.Positive) : t'.Positive := by
  rcases change with rfl | applied
  · exact ht
  · exact (scales_of_apply scale applied).positive guard ht

/-- Terms that have been multiplied or divided, or left as they were. -/
theorem termsWellFormed_rescaled {g g' : Group} (h : TermsWellFormed g.terms)
    (guard : ∀ t ∈ g.terms, 1 ≤ n.toInt ∨ t.isDice = false) (rescaled : Rescales op n g g') :
    TermsWellFormed g'.terms where
  ne_nil := by
    intro empty
    rw [Rescales, empty] at rescaled
    exact h.ne_nil (List.forall₂_nil_right_iff.mp rescaled)
  positive t' ht' := by
    obtain ⟨t, ht, change⟩ := exists_of_forall₂ rescaled ht'
    exact positive_of_change scale change (guard t ht) (h.positive t ht)
  nodup := by
    have shapes : List.Forall₂ (fun t t' => t'.shape = t.shape) g.terms g'.terms :=
      rescaled.imp fun t t' change => shape_of_change scale change
    have same : g'.terms.map Term.shape = g.terms.map Term.shape := by
      generalize g.terms = terms, g'.terms = terms' at shapes
      induction shapes with
      | nil => rfl
      | cons shape _ ih => rw [List.map_cons, List.map_cons, shape, ih]
    rw [same]
    exact h.nodup

theorem Instance.WellFormed.rescaled {i i' : Instance} (hi : i.WellFormed)
    (guard : 1 ≤ n.toInt ∨ ∀ t ∈ i.terms, t.isDice = false)
    (h : List.Forall₂ (Rescales op n) i.groups i'.groups) : i'.WellFormed where
  ne_nil := by
    intro empty
    rw [empty] at h
    exact hi.ne_nil (List.forall₂_nil_right_iff.mp h)
  terms g' hg' := by
    obtain ⟨g, hg, rescaled⟩ := exists_of_forall₂ h hg'
    have guarded : ∀ t ∈ g.terms, 1 ≤ n.toInt ∨ t.isDice = false := by
      intro t ht
      exact guard.imp_right fun constants => constants t (List.mem_flatMap.mpr ⟨g, hg, ht⟩)
    exact termsWellFormed_rescaled scale (hi.terms g hg) guarded rescaled

end Rescale

/-- Whatever `apply` leaves is well formed, also when it fails. -/
theorem Instance.WellFormed.apply {i : Instance} (hi : i.WellFormed) (op : Formula.Operator)
    (n : Amount) : (i.apply op n).state.WellFormed := by
  have kinds : (op = .add ∨ op = .sub) ∨ (op = .mul ∨ op = .div) := by
    cases op <;> simp
  rcases kinds with sum | scale
  · rcases state_apply sum with same | shifted
    · rw [same]
      exact hi
    · exact hi.shift sum shifted
  · rcases of_apply scale with same | ⟨guard, rescaled⟩
    · rw [same]
      exact hi
    · exact hi.rescaled scale guard rescaled

/-! ### Runs -/

/-- What can be done with instances in registers. -/
inductive Command (ι : Type) where
  | apply (register : ι) (op : Formula.Operator) (n : Amount)
  | merge (register other : ι)
  | append (register other : ι)
  | addTag (register : ι) (tag : Text)
  | setShortLabel (register : ι) (shortLabel : Bool)

variable {ι : Type} [DecidableEq ι]

/-- The registers after a command. An `apply` that fails leaves what it has changed; a
`merge` that fails leaves its register as it was. -/
def Command.run (registers : ι → Instance) : Command ι → ι → Instance
  | apply r op n => Function.update registers r ((registers r).apply op n).state
  | merge r other =>
    match (registers r).merge (registers other) with
    | .ok merged => Function.update registers r merged
    | .error _ => registers
  | append r other => Function.update registers r ((registers r).append (registers other))
  | addTag r tag => Function.update registers r ((registers r).addTag tag)
  | setShortLabel r shortLabel => Function.update registers r { registers r with shortLabel }

/-- The registers after a sequence of commands. -/
def runAll (registers : ι → Instance) (commands : List (Command ι)) : ι → Instance :=
  commands.foldl Command.run registers

theorem wellFormed_update {registers : ι → Instance} (h : ∀ r, (registers r).WellFormed) (r : ι)
    {i : Instance} (hi : i.WellFormed) (s : ι) : (Function.update registers r i s).WellFormed := by
  by_cases same : s = r
  · subst same
    rwa [Function.update_self]
  · rw [Function.update_of_ne same]
    exact h s

theorem wellFormed_run {registers : ι → Instance} (h : ∀ r, (registers r).WellFormed)
    (command : Command ι) (s : ι) : (command.run registers s).WellFormed := by
  cases command with
  | apply r op n => exact wellFormed_update h r ((h r).apply op n) s
  | merge r other =>
    rw [Command.run]
    cases merged : (registers r).merge (registers other) with
    | error e => exact h s
    | ok i => exact wellFormed_update h r ((h r).merge (h other) merged) s
  | append r other => exact wellFormed_update h r ((h r).append (h other)) s
  | addTag r tag => exact wellFormed_update h r ((h r).addTag tag) s
  | setShortLabel r shortLabel => exact wellFormed_update h r ((h r).setShortLabel shortLabel) s

theorem wellFormed_runAll {registers : ι → Instance} (h : ∀ r, (registers r).WellFormed)
    (commands : List (Command ι)) (s : ι) : (runAll registers commands s).WellFormed := by
  induction commands generalizing registers with
  | nil => exact h s
  | cons command commands ih => exact ih (wellFormed_run h command)

end RuleText.Damage
