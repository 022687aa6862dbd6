import RuleText.Proofs.Damage.WellFormed

/-!
# Merging damage

The sum of two instances adds up what belongs together: groups with the same set of tags,
and in them terms of the same shape. It keeps the order of the first instance and puts what
is new behind it (`merge_exact`). It fails only where two amounts that belong together have
a sum that does not fit.

Which instance comes first decides about the order and not about the amounts, and three
instances may be merged in either order of brackets (`merge_assoc`).
-/

namespace RuleText.Damage

/-! ### Sums that do not fit -/

/-- The terms belong together, but constants, counts or modifiers have a sum that is no
amount. -/
inductive Term.Overflows : Term → Term → Prop
  | constants {a b : Amount} : ¬ Amount.Fits (a.toInt + b.toInt) →
      Overflows (.constant a) (.constant b)
  | counts {a b : Dice} : a.size = b.size → ¬ Amount.Fits (a.count.toInt + b.count.toInt) →
      Overflows (.dice a) (.dice b)
  | modifiers {a b : Dice} : a.size = b.size →
      ¬ Amount.Fits (a.modifier.toInt + b.modifier.toInt) → Overflows (.dice a) (.dice b)

/-- Under a set of tags that both instances have, two terms have a sum that does not fit. -/
def Instance.Overflows (i j : Instance) : Prop :=
  ∃ g ∈ i.groups, ∃ h ∈ j.groups, g.tagSet = h.tagSet ∧
    ∃ t ∈ g.terms, ∃ u ∈ h.terms, t.Overflows u

theorem Joins.comm {t u v v' : Term} (h : Joins t u v) (h' : Joins u t v') : v = v' := by
  cases h with
  | @constants a b c sum =>
    obtain ⟨sum'⟩ := h'
    have same : c.toInt = _ := sum.trans ((Int.add_comm _ _).trans sum'.symm)
    rw [Int64.toInt_inj.mp same]
  | @dice a b count modifier size counts modifiers =>
    obtain _ | ⟨size', counts', modifiers'⟩ := h'
    have count : count.toInt = _ := counts.trans ((Int.add_comm _ _).trans counts'.symm)
    have modifier : modifier.toInt = _ :=
      modifiers.trans ((Int.add_comm _ _).trans modifiers'.symm)
    rw [Int64.toInt_inj.mp count, Int64.toInt_inj.mp modifier, size]

section Overflows

variable {t u v : Term} {i j k : Instance}

theorem Term.Overflows.shape_eq (h : t.Overflows u) : t.shape = u.shape := by
  obtain _ | ⟨size, _⟩ | ⟨size, _⟩ := h
  · rfl
  · exact congrArg some size
  · exact congrArg some size

theorem Term.Overflows.symm (h : t.Overflows u) : u.Overflows t := by
  obtain large | ⟨size, large⟩ | ⟨size, large⟩ := h
  · exact .constants (Int.add_comm _ _ ▸ large)
  · exact .counts size.symm (Int.add_comm _ _ ▸ large)
  · exact .modifiers size.symm (Int.add_comm _ _ ▸ large)

theorem Instance.Overflows.symm (h : i.Overflows j) : j.Overflows i := by
  obtain ⟨g, hg, g', hg', tags, t, ht, u, hu, large⟩ := h
  exact ⟨g', hg', g, hg, tags.symm, u, hu, t, ht, large.symm⟩

theorem not_overflows_of_joins (h : Joins t u v) : ¬ t.Overflows u := by
  rintro (large | ⟨_, large⟩ | ⟨_, large⟩)
  · obtain ⟨sum⟩ := h
    exact large (sum ▸ Amount.fits_toInt _)
  · obtain _ | ⟨_, count, _⟩ := h
    exact large (count ▸ Amount.fits_toInt _)
  · obtain _ | ⟨_, _, modifier⟩ := h
    exact large (modifier ▸ Amount.fits_toInt _)

theorem exists_joins (same : t.shape = u.shape) (h : ¬ t.Overflows u) : ∃ v, Joins t u v := by
  cases t with
  | constant a =>
    cases u with
    | constant b =>
      have fits : Amount.Fits (a.toInt + b.toInt) := not_not.mp fun large => h (.constants large)
      exact ⟨_, .constants (Amount.toInt_ofInt_of_fits fits)⟩
    | dice b => cases same
  | dice a =>
    cases u with
    | constant b => cases same
    | dice b =>
      have size : a.size = b.size := Option.some.inj same
      have count := not_not.mp fun large => h (.counts size large)
      have modifier := not_not.mp fun large => h (.modifiers size large)
      exact ⟨_, .dice size (Amount.toInt_ofInt_of_fits count)
        (Amount.toInt_ofInt_of_fits modifier)⟩

end Overflows

/-! ### The only error -/

section Error

variable {e : EvalError}

theorem eq_overflow_of_absorb {t u : Term} (h : (t.absorb u).result = .error e) :
    e = .overflow := by
  cases t with
  | constant a =>
    cases u with
    | constant b =>
      rw [Term.absorb] at h
      split at h
      · cases h
      · cases h
        rfl
    | dice b => cases h
  | dice a =>
    cases u with
    | constant b => cases h
    | dice b =>
      rw [Term.absorb] at h
      split at h
      · split at h
        · cases h
          rfl
        · split at h
          · cases h
            rfl
          · cases h
      · cases h

theorem eq_overflow_of_addTerm {term : Term} {terms : List Term}
    (h : Group.addTerm term terms = .error e) : e = .overflow := by
  induction terms with
  | nil => cases h
  | cons t terms ih =>
    rw [Group.addTerm] at h
    cases outcome : (t.absorb term).result with
    | error e' =>
      simp only [outcome, Except.error.injEq] at h
      exact h ▸ eq_overflow_of_absorb outcome
    | ok joined =>
      cases joined with
      | true => simp [outcome] at h
      | false =>
        simp only [outcome] at h
        exact ih (map_eq_error.mp h)

theorem eq_overflow_of_groupAbsorb {g other : Group} (h : g.absorb other = .error e) :
    e = .overflow := by
  obtain ⟨terms, t, -, added⟩ := exists_of_foldlM_eq_error (map_eq_error.mp h)
  exact eq_overflow_of_addTerm added

theorem eq_overflow_of_mergeGroup {group : Group} {groups : List Group}
    (h : Instance.mergeGroup group groups = .error e) : e = .overflow := by
  induction groups with
  | nil => cases h
  | cons g groups ih =>
    rw [Instance.mergeGroup] at h
    by_cases same : g.sameTags group = true
    · rw [if_pos same] at h
      exact eq_overflow_of_groupAbsorb (map_eq_error.mp h)
    · rw [if_neg same] at h
      exact ih (map_eq_error.mp h)

theorem eq_overflow_of_merge {i j : Instance} (h : i.merge j = .error e) : e = .overflow := by
  obtain ⟨groups, g, -, merged⟩ := exists_of_foldlM_eq_error (map_eq_error.mp h)
  exact eq_overflow_of_mergeGroup merged

end Error

/-! ### The sum of two instances -/

/-- No two groups have the same set of tags. -/
def Instance.TagsDistinct (i : Instance) : Prop :=
  (i.groups.map Group.tagSet).Nodup

instance (i : Instance) : Decidable i.TagsDistinct :=
  inferInstanceAs (Decidable (List.Nodup _))

/-- A term of the instance under a set of tags. -/
def Instance.HasTerm (i : Instance) (tags : Finset Text) (t : Term) : Prop :=
  ∃ g ∈ i.groups, g.tagSet = tags ∧ t ∈ g.terms

/-- The constant of the instance under a set of tags, or its dice of one size. -/
def Instance.term? (i : Instance) (tags : Finset Text) (shape : Option Amount) : Option Term :=
  (i.groups.find? fun g => g.tagSet = tags).bind fun g => g.terms.find? fun t => t.shape = shape

/-- Under each set of tags there is at most one term of each shape. -/
theorem term?_eq_some_iff {i : Instance} {tags : Finset Text} {shape : Option Amount} {t : Term}
    (hi : i.WellFormed) (ti : i.TagsDistinct) :
    i.term? tags shape = some t ↔ i.HasTerm tags t ∧ t.shape = shape := by
  rw [Instance.term?, Option.bind_eq_some_iff]
  constructor
  · rintro ⟨g, found, found'⟩
    obtain ⟨hg, same⟩ := (find?_key_eq_some_iff ti).mp found
    obtain ⟨ht, shape⟩ := (find?_key_eq_some_iff (hi.terms g hg).nodup).mp found'
    exact ⟨⟨g, hg, same, ht⟩, shape⟩
  · rintro ⟨⟨g, hg, same, ht⟩, shape⟩
    exact ⟨g, (find?_key_eq_some_iff ti).mpr ⟨hg, same⟩,
      (find?_key_eq_some_iff (hi.terms g hg).nodup).mpr ⟨ht, shape⟩⟩

/-- The third group has the tags of the first one and its terms in their order, with the
terms of the second one of the same shape added to them and those of other shapes behind. -/
structure Group.Adds (g other sum : Group) : Prop where
  tags : sum.tags = g.tags
  terms : JoinedByKey Term.shape Joins g.terms other.terms sum.terms

theorem tagSet_of_tags {g g' : Group} (h : g'.tags = g.tags) : g'.tagSet = g.tagSet :=
  congrArg List.toFinset h

theorem keeps_tagSet ⦃g other sum : Group⦄ (h : g.Absorbs other sum) : sum.tagSet = g.tagSet :=
  tagSet_of_tags h.tags

theorem Group.Absorbs.adds {g other sum : Group} (h : g.Absorbs other sum)
    (hg : TermsWellFormed g.terms) (hother : TermsWellFormed other.terms) : g.Adds other sum where
  tags := h.tags
  terms := h.terms.joinedByKey (fun _ _ _ joins => joins.shape) hg.nodup hother.nodup

section Merge

variable {i j k k' : Instance} (hi : i.WellFormed) (hj : j.WellFormed) (ti : i.TagsDistinct)
  (tj : j.TagsDistinct)
include hi hj ti tj

theorem joinedByKey_of_merge (h : i.merge j = .ok k) :
    JoinedByKey Group.tagSet Group.Adds i.groups j.groups k.groups := by
  obtain ⟨-, enters⟩ := merge_eq_ok_iff.mp h
  have joined := enters.joinedByKey keeps_tagSet ti tj
  exact joined.imp fun g hg g' hg' _ _ absorbs => absorbs.adds (hi.terms g hg) (hj.terms g' hg')

theorem exists_merge_iff : (∃ k, i.merge j = .ok k) ↔ ¬ i.Overflows j := by
  constructor
  · rintro ⟨k, merged⟩ ⟨g, hg, g', hg', tags, t, ht, u, hu, large⟩
    have joined := joinedByKey_of_merge hi hj ti tj merged
    obtain ⟨sum, -, adds⟩ := joined.exists_joined tj hg hg' tags
    obtain ⟨v, -, joins⟩ := adds.terms.exists_joined (hj.terms g' hg').nodup ht hu large.shape_eq
    exact not_overflows_of_joins joins large
  · intro small
    have absorbs : ∀ g ∈ i.groups, ∀ g' ∈ j.groups, g.tagSet = g'.tagSet →
        ∃ sum, g.Absorbs g' sum := by
      intro g hg g' hg' tags
      have joins : ∀ t ∈ g.terms, ∀ u ∈ g'.terms, t.shape = u.shape → ∃ v, Joins t u v :=
        fun t ht u hu same =>
          exists_joins same fun large => small ⟨g, hg, g', hg', tags, t, ht, u, hu, large⟩
      obtain ⟨terms, enters⟩ := exists_enterAll (fun _ _ _ joins => joins.shape)
        (hj.terms g' hg').nodup joins
      exact ⟨⟨terms, g.tags⟩, rfl, enters⟩
    obtain ⟨groups, enters⟩ := exists_enterAll keeps_tagSet tj absorbs
    exact ⟨{ i with groups }, merge_eq_ok_iff.mpr ⟨rfl, enters⟩⟩

/-- Merged the other way round, the instances have the same terms under the same tags. -/
theorem hasTerm_of_merge {tags : Finset Text} {t : Term} (h : i.merge j = .ok k)
    (h' : j.merge i = .ok k') (has : k.HasTerm tags t) : k'.HasTerm tags t := by
  have joined := joinedByKey_of_merge hi hj ti tj h
  have joined' := joinedByKey_of_merge hj hi tj ti h'
  let Within (g g' : Group) : Prop := g'.tagSet = g.tagSet ∧ ∀ t ∈ g.terms, t ∈ g'.terms
  have swap : ∀ g ∈ i.groups, ∀ g' ∈ j.groups, ∀ sum sum', g.tagSet = g'.tagSet →
      g.Adds g' sum → g'.Adds g sum' → Within sum sum' := by
    intro g hg g' hg' sum sum' same adds adds'
    refine ⟨?_, fun t ht => ?_⟩
    · rw [tagSet_of_tags adds.tags, tagSet_of_tags adds'.tags, same]
    · obtain ⟨t', ht', rfl⟩ := adds.terms.exists_swapped (S := Eq) adds'.terms
        (hi.terms g hg).nodup (fun t => rfl) (fun t _ u _ v v' _ joins joins' => joins.comm joins')
        ht
      exact ht'
  obtain ⟨g, hg, rfl, ht⟩ := has
  obtain ⟨g', hg', tags, terms⟩ := joined.exists_swapped (S := Within) joined' ti
    (fun g => ⟨rfl, fun t ht => ht⟩) swap hg
  exact ⟨g', hg', tags, terms t ht⟩

theorem tagsDistinct_of_merge (h : i.merge j = .ok k) : k.TagsDistinct :=
  (joinedByKey_of_merge hi hj ti tj h).nodup (fun _ _ _ adds => tagSet_of_tags adds.tags) ti tj

theorem term?_of_merge (h : i.merge j = .ok k) (h' : j.merge i = .ok k') (tags : Finset Text)
    (shape : Option Amount) : k.term? tags shape = k'.term? tags shape := by
  ext t
  rw [term?_eq_some_iff (hi.merge hj h) (tagsDistinct_of_merge hi hj ti tj h),
    term?_eq_some_iff (hj.merge hi h') (tagsDistinct_of_merge hj hi tj ti h')]
  exact and_congr_left fun _ =>
    ⟨hasTerm_of_merge hi hj ti tj h h', hasTerm_of_merge hj hi tj ti h' h⟩

end Merge

/-- Merging fails only where two amounts that belong together have a sum that does not fit.
Otherwise the groups of the first instance come first, each with the group of the second one
that has its tags added to it, and then those with new tags; within a group the same holds of
terms and their shapes. Merged the other way round, the instances succeed alike, and they have
the same amounts under each set of tags. -/
theorem merge_exact {i j : Instance} (hi : i.WellFormed) (hj : j.WellFormed)
    (ti : i.TagsDistinct) (tj : j.TagsDistinct) :
    (∀ e, i.merge j = .error e ↔ e = .overflow ∧ i.Overflows j) ∧
      (∀ k, i.merge j = .ok k → k.shortLabel = i.shortLabel ∧
        JoinedByKey Group.tagSet Group.Adds i.groups j.groups k.groups ∧
        k.WellFormed ∧ k.TagsDistinct) ∧
      ((∃ k, i.merge j = .ok k) ↔ ∃ k, j.merge i = .ok k) ∧
      ∀ k k', i.merge j = .ok k → j.merge i = .ok k' →
        ∀ tags shape, k.term? tags shape = k'.term? tags shape := by
  refine ⟨?_, ?_, ?_, ?_⟩
  · intro e
    have succeeds := exists_merge_iff hi hj ti tj
    cases merged : i.merge j with
    | ok k =>
      have small := succeeds.mp ⟨k, merged⟩
      simp [small]
    | error e' =>
      obtain rfl := eq_overflow_of_merge merged
      have large : i.Overflows j := by
        by_contra small
        obtain ⟨k, merged'⟩ := succeeds.mpr small
        rw [merged] at merged'
        cases merged'
      simp [large, eq_comm]
  · intro k merged
    exact ⟨(merge_eq_ok_iff.mp merged).1, joinedByKey_of_merge hi hj ti tj merged,
      hi.merge hj merged, tagsDistinct_of_merge hi hj ti tj merged⟩
  · rw [exists_merge_iff hi hj ti tj, exists_merge_iff hj hi tj ti]
    exact not_congr ⟨Instance.Overflows.symm, Instance.Overflows.symm⟩
  · intro k k' merged merged'
    exact term?_of_merge hi hj ti tj merged merged'

/-- Fire with a bonus, and dice without tags. -/
def fireAndUntagged : Instance :=
  ⟨[⟨[.dice ⟨2, 6, 1⟩, .constant 4], ["fire".toList, "persistent".toList]⟩,
    ⟨[.dice ⟨1, 8, 0⟩], []⟩], false⟩

/-- Cold, and fire with the same tags in another order and one of them twice. -/
def coldAndFire : Instance :=
  ⟨[⟨[.dice ⟨1, 4, 0⟩], ["cold".toList]⟩,
    ⟨[.constant 5, .dice ⟨1, 6, -3⟩, .dice ⟨2, 10, 0⟩],
      ["persistent".toList, "fire".toList, "persistent".toList]⟩], true⟩

def fireUntaggedCold : Instance :=
  ⟨[⟨[.dice ⟨3, 6, -2⟩, .constant 9, .dice ⟨2, 10, 0⟩], ["fire".toList, "persistent".toList]⟩,
    ⟨[.dice ⟨1, 8, 0⟩], []⟩, ⟨[.dice ⟨1, 4, 0⟩], ["cold".toList]⟩], false⟩

theorem merge_fireAndCold :
    fireAndUntagged.WellFormed ∧ coldAndFire.WellFormed ∧
      fireAndUntagged.TagsDistinct ∧ coldAndFire.TagsDistinct ∧
      fireAndUntagged.merge coldAndFire = .ok fireUntaggedCold ∧
      JoinedByKey Group.tagSet Group.Adds fireAndUntagged.groups coldAndFire.groups
        fireUntaggedCold.groups ∧
      fireUntaggedCold.TagsDistinct ∧
      ∃ k, coldAndFire.merge fireAndUntagged = .ok k ∧
        ∀ tags shape, fireUntaggedCold.term? tags shape = k.term? tags shape := by
  have left : fireAndUntagged.WellFormed ∧ fireAndUntagged.TagsDistinct := by decide
  have right : coldAndFire.WellFormed ∧ coldAndFire.TagsDistinct := by decide
  have merged : fireAndUntagged.merge coldAndFire = .ok fireUntaggedCold := rfl
  obtain ⟨-, sums, alike, amounts⟩ := merge_exact left.1 right.1 left.2 right.2
  obtain ⟨-, joined, -, distinct⟩ := sums _ merged
  obtain ⟨k, merged'⟩ := alike.mp ⟨_, merged⟩
  exact ⟨left.1, right.1, left.2, right.2, merged, joined, distinct, k, merged',
    amounts _ k merged merged'⟩

/-! ### Three instances -/

theorem Joins.assoc {t u v tu uv tuv : Term} (left : Joins t u tu) (whole : Joins tu v tuv)
    (right : Joins u v uv) : Joins t uv tuv := by
  cases left with
  | constants sum =>
    obtain ⟨sum'⟩ := whole
    obtain ⟨sum''⟩ := right
    exact .constants (by omega)
  | @dice a b count modifier size counts modifiers =>
    cases whole with
    | @dice _ c count' modifier' _ counts' modifiers' =>
      cases right with
      | @dice _ _ count'' modifier'' _ counts'' modifiers'' =>
        have counted : count'.toInt = count.toInt + c.count.toInt := counts'
        have modified : modifier'.toInt = modifier.toInt + c.modifier.toInt := modifiers'
        refine .dice size ?_ ?_
        · show count'.toInt = a.count.toInt + count''.toInt
          omega
        · show modifier'.toInt = a.modifier.toInt + modifier''.toInt
          omega

theorem associates_joins : Associates Term.shape Joins fun _ => True where
  keeps _ _ _ joins := joins.shape
  proper _ _ _ _ _ _ := trivial
  unique t u v v' joins joins' := by
    have same := (absorb_of_joins joins).symm.trans (absorb_of_joins joins')
    exact congrArg Attempt.state same
  assoc _ _ _ _ _ _ _ left whole right := left.assoc whole right

theorem associates_absorbs :
    Associates Group.tagSet Group.Absorbs fun g => TermsWellFormed g.terms where
  keeps := keeps_tagSet
  proper _ _ _ hg hother absorbs :=
    termsWellFormed_absorb hg hother (absorb_eq_ok_iff.mpr absorbs)
  unique g other k k' absorbs absorbs' := by
    have same := (absorb_eq_ok_iff.mpr absorbs).symm.trans (absorb_eq_ok_iff.mpr absorbs')
    exact Except.ok.inj same
  assoc g g' g'' _ _ _ hg' left whole right := by
    refine ⟨whole.tags.trans left.tags, ?_⟩
    exact associates_joins.enterAll_assoc left.terms whole.terms right.terms
      (fun _ _ => trivial) (fun _ _ => trivial) hg'.nodup

/-- Where instances can be merged from the left, and the last two with each other, they can
be merged from the right. -/
theorem merge_merge_of_ok {i j k ij jk ijk : Instance} (hj : j.WellFormed) (hk : k.WellFormed)
    (tj : j.TagsDistinct) (left : i.merge j = .ok ij) (whole : ij.merge k = .ok ijk)
    (right : j.merge k = .ok jk) : i.merge jk = .ok ijk := by
  obtain ⟨label, left⟩ := merge_eq_ok_iff.mp left
  obtain ⟨label', whole⟩ := merge_eq_ok_iff.mp whole
  obtain ⟨-, right⟩ := merge_eq_ok_iff.mp right
  refine merge_eq_ok_iff.mpr ⟨label'.trans label, ?_⟩
  exact associates_absorbs.enterAll_assoc left whole right hj.terms hk.terms tj

/-- Three instances merged in either order of brackets are the same instance, if no two groups
of the one in the middle have the same set of tags. -/
theorem merge_assoc {i j k l r : Instance} (hj : j.WellFormed) (hk : k.WellFormed)
    (tj : j.TagsDistinct) (left : (do (← i.merge j).merge k) = .ok l)
    (right : (do i.merge (← j.merge k)) = .ok r) : l = r := by
  obtain ⟨ij, first, whole⟩ := bind_eq_ok.mp left
  obtain ⟨jk, inner, outer⟩ := bind_eq_ok.mp right
  have same := merge_merge_of_ok hj hk tj first whole inner
  rw [outer] at same
  exact (Except.ok.inj same).symm

/-- Cold twice with more tags than needed, and acid. -/
def coldTwice : Instance :=
  ⟨[⟨[.dice ⟨1, 4, 2⟩, .constant 1], ["cold".toList]⟩,
    ⟨[.dice ⟨2, 4, 0⟩], ["cold".toList, "cold".toList]⟩, ⟨[.constant 7], ["acid".toList]⟩], false⟩

def fireUntaggedColdAcid : Instance :=
  ⟨[⟨[.dice ⟨3, 6, -2⟩, .constant 9, .dice ⟨2, 10, 0⟩], ["fire".toList, "persistent".toList]⟩,
    ⟨[.dice ⟨1, 8, 0⟩], []⟩, ⟨[.dice ⟨4, 4, 2⟩, .constant 1], ["cold".toList]⟩,
    ⟨[.constant 7], ["acid".toList]⟩], false⟩

theorem merge_fireColdAcid :
    coldAndFire.WellFormed ∧ coldTwice.WellFormed ∧ coldAndFire.TagsDistinct ∧
      (do (← fireAndUntagged.merge coldAndFire).merge coldTwice) = .ok fireUntaggedColdAcid ∧
      ∃ r, (do fireAndUntagged.merge (← coldAndFire.merge coldTwice)) = .ok r ∧
        fireUntaggedColdAcid = r := by
  have middle : coldAndFire.WellFormed ∧ coldAndFire.TagsDistinct := by decide
  have last : coldTwice.WellFormed := by decide
  have left : (do (← fireAndUntagged.merge coldAndFire).merge coldTwice) =
      .ok fireUntaggedColdAcid := rfl
  have right : (do fireAndUntagged.merge (← coldAndFire.merge coldTwice)) =
      .ok fireUntaggedColdAcid := rfl
  exact ⟨middle.1, last, middle.2, left, _, right, merge_assoc middle.1 last middle.2 left right⟩

end RuleText.Damage
