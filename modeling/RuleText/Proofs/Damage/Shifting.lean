import RuleText.Proofs.Damage.Merging

/-!
# Adding numbers one after the other

Two numbers that are added one after the other may as well be added at once, and subtracting a
number is adding its opposite (`shifts_accumulate`).

A lone term takes numbers in and stays alone. Any other instance has a number merged into it
as a constant without tags. It does not come down to a lone term by that, so the second number
is merged as well, and it meets the constant that the first one has become.
-/

namespace RuleText.Damage

open Formula (Operator)

theorem Offsets.trans {m n : Int} {t u v : Term} (h : Offsets m t u) (h' : Offsets n u v) :
    Offsets (m + n) t v := by
  cases h with
  | constant sum =>
    obtain ⟨sum'⟩ := h'
    refine .constant ?_
    rw [sum', sum, Int.add_assoc]
  | dice sum =>
    obtain _ | ⟨sum'⟩ := h'
    refine .dice ?_
    rw [sum', sum, Int.add_assoc]

section Merged

variable {a b c : Amount} {groups groups' groups'' : List Group}

/-- The second constant enters the group that the first one has entered, and there the first
constant of the group. -/
theorem mergeGroup_constants (sum : c.toInt = a.toInt + b.toInt)
    (first : Instance.mergeGroup (.ofTerm (.constant a)) groups = .ok groups')
    (second : Instance.mergeGroup (.ofTerm (.constant b)) groups' = .ok groups'') :
    Instance.mergeGroup (.ofTerm (.constant c)) groups = .ok groups'' := by
  have joined : (Group.ofTerm (.constant a)).Absorbs (.ofTerm (.constant b))
      (.ofTerm (.constant c)) := ⟨rfl, .cons (.joined rfl (.constants sum)) (.nil _)⟩
  have alone : TermsWellFormed (Group.ofTerm (.constant a)).terms :=
    termsWellFormed_singleton trivial
  rw [mergeGroup_eq_ok_iff] at first second ⊢
  exact associates_absorbs.enters_joined first second alone rfl joined

/-- No merged constant makes a lone term of what was none. -/
theorem not_lone_of_mergeGroup {i : Instance} (hi : i.WellFormed) (several : ¬ i.Lone)
    (merged : Instance.mergeGroup (.ofTerm (.constant a)) i.groups = .ok groups) :
    ¬ ({ i with groups } : Instance).Lone := by
  rintro ⟨t, tags, rfl⟩
  obtain ⟨before, g, g', after, whole, lone, absorbed⟩ | concat := of_mergeGroup merged
  · obtain ⟨rfl, rfl, rfl⟩ : before = [] ∧ g' = ⟨[t], tags⟩ ∧ after = [] := by
      simpa [List.singleton_eq_append_iff] using lone
    have nonempty : g.terms ≠ [] := (hi.terms g (by simp [whole])).ne_nil
    obtain ⟨-, terms⟩ := absorb_eq_ok_iff.mp absorbed
    obtain ⟨terms, tags'⟩ := g
    obtain _ | ⟨enters, _ | _⟩ := terms
    obtain _ | _ | ⟨_, enters⟩ := enters
    · exact nonempty rfl
    · exact several ⟨_, tags', whole⟩
    · cases enters
  · have empty : i.groups = [] := by simpa using (congrArg List.length concat).symm
    exact hi.ne_nil empty

end Merged

/-! ### Instances -/

section Instance

variable {i j k : Instance} {a b : Amount}

theorem shift_add_eq_ok_iff_of_lone {t : Term} {tags : List Text}
    (lone : i.groups = [⟨[t], tags⟩]) :
    i.shift .add a = .ok j ↔
      ∃ t', Offsets a.toInt t t' ∧ { i with groups := [⟨[t'], tags⟩] } = j := by
  rw [shift_of_lone lone, map_eq_ok]
  exact exists_congr fun t' => and_congr_left fun _ => offset_eq_ok_iff

theorem shift_add_eq_ok_iff_of_not_lone (several : ¬ i.Lone) :
    i.shift .add a = .ok j ↔
      ∃ groups, Instance.mergeGroup (.ofTerm (.constant a)) i.groups = .ok groups ∧
        { i with groups } = j := by
  rw [shift_of_not_lone several]
  exact map_eq_ok

theorem shift_add_shift_add (hi : i.WellFormed) (fits : Amount.Fits (a.toInt + b.toInt))
    (first : i.shift .add a = .ok j) (second : j.shift .add b = .ok k) :
    i.shift .add (a + b) = .ok k := by
  have sum : (a + b).toInt = a.toInt + b.toInt := Amount.toInt_add_of_fits fits
  by_cases lone : i.Lone
  · obtain ⟨t, tags, lone⟩ := lone
    obtain ⟨t', offsets, rfl⟩ := (shift_add_eq_ok_iff_of_lone lone).mp first
    obtain ⟨t'', offsets', rfl⟩ := (shift_add_eq_ok_iff_of_lone rfl).mp second
    have both := offsets.trans offsets'
    rw [← sum] at both
    exact (shift_add_eq_ok_iff_of_lone lone).mpr ⟨t'', both, rfl⟩
  · obtain ⟨groups, merged, rfl⟩ := (shift_add_eq_ok_iff_of_not_lone lone).mp first
    have several := not_lone_of_mergeGroup hi lone merged
    obtain ⟨groups', merged', rfl⟩ := (shift_add_eq_ok_iff_of_not_lone several).mp second
    have both := mergeGroup_constants sum merged merged'
    exact (shift_add_eq_ok_iff_of_not_lone lone).mpr ⟨groups', both, rfl⟩

theorem shift_sub_eq (opposite : a.toInt ≠ Amount.least) (i : Instance) :
    i.shift .sub a = i.shift .add (-a) := by
  have fits : Amount.Fits (-a.toInt) := by
    obtain ⟨lower, upper⟩ := Amount.fits_toInt a
    unfold Amount.Fits Amount.least Amount.greatest at *
    omega
  have number : signed? .sub a = signed? .add (-a) :=
    signed?_eq_ok_iff.mpr (Amount.toInt_neg_of_fits fits)
  by_cases lone : i.Lone
  · obtain ⟨t, tags, lone⟩ := lone
    rw [shift_of_lone lone, shift_of_lone lone, term_apply_eq (.inr rfl), term_apply_eq (.inl rfl),
      number]
  · rw [shift_of_not_lone lone, shift_of_not_lone lone, number]

end Instance

/-- If two numbers can be added one after the other, and their sum is an amount, the sum can be
added with the same result. Subtracting a number other than the least amount is adding its
opposite, also where it fails. -/
theorem shifts_accumulate :
    (∀ i : Instance, i.WellFormed → ∀ a b : Amount, Amount.Fits (a.toInt + b.toInt) →
      ∀ j k, i.apply .add a = ⟨.ok (), j⟩ → j.apply .add b = ⟨.ok (), k⟩ →
        i.apply .add (a + b) = ⟨.ok (), k⟩) ∧
    ∀ a : Amount, a.toInt ≠ Amount.least → ∀ i : Instance, i.apply .sub a = i.apply .add (-a) := by
  constructor
  · intro i hi a b fits j k first second
    rw [apply_shift_eq (.inl rfl), Attempt.ofExcept_eq_ok_iff] at first second ⊢
    exact shift_add_shift_add hi fits first second
  · intro a opposite i
    rw [apply_shift_eq (.inr rfl), apply_shift_eq (.inl rfl), shift_sub_eq opposite]

def fireAndThree : Instance :=
  ⟨[⟨[.dice ⟨2, 6, 1⟩, .constant 4], ["fire".toList, "persistent".toList]⟩,
    ⟨[.dice ⟨1, 8, 0⟩, .constant 3], []⟩], false⟩

def fireLessTwo : Instance :=
  ⟨[⟨[.dice ⟨2, 6, 1⟩, .constant 4], ["fire".toList, "persistent".toList]⟩,
    ⟨[.dice ⟨1, 8, 0⟩, .constant (-2)], []⟩], false⟩

theorem shifts_fireAndUntagged :
    fireAndUntagged.WellFormed ∧ Amount.Fits ((3 : Amount).toInt + (-5 : Amount).toInt) ∧
      fireAndUntagged.apply .add 3 = ⟨.ok (), fireAndThree⟩ ∧
      fireAndThree.apply .add (-5) = ⟨.ok (), fireLessTwo⟩ ∧
      fireAndUntagged.apply .add (3 + -5) = ⟨.ok (), fireLessTwo⟩ ∧
      (5 : Amount).toInt ≠ Amount.least ∧
      fireAndThree.apply .sub 5 = fireAndThree.apply .add (-5) := by
  obtain ⟨accumulate, opposite⟩ := shifts_accumulate
  have wellFormed : fireAndUntagged.WellFormed := by decide
  have fits : Amount.Fits ((3 : Amount).toInt + (-5 : Amount).toInt) := by decide
  have first : fireAndUntagged.apply .add 3 = ⟨.ok (), fireAndThree⟩ := rfl
  have second : fireAndThree.apply .add (-5) = ⟨.ok (), fireLessTwo⟩ := rfl
  have other : (5 : Amount).toInt ≠ Amount.least := by decide
  exact ⟨wellFormed, fits, first, second,
    accumulate _ wellFormed 3 (-5) fits _ _ first second, other, opposite 5 other fireAndThree⟩

end RuleText.Damage
