import RuleText.Proofs.Formula.Spelling
import RuleText.RollData.Path

/-!
# Reading paths

What each function that reads a path does, and that a path is read part by part: what is
before a point, then what is behind it (`steps?_point`). The steps that are read can be
printed: keys are not empty and hold no delimiter that would end them, and indexes are
unsigned numbers of 64 bits (`proper_of_steps?`).
-/

namespace RuleText

namespace Step

/-- Keys are not empty and without points and opening brackets; indexes are below 2⁶⁴. -/
def Proper : Step → Prop
  | key name => name ≠ [] ∧ '.' ∉ name ∧ '[' ∉ name
  | index position => position < Amount.unsignedLimit

instance : DecidablePred Proper
  | key _ => inferInstanceAs (Decidable (_ ∧ _ ∧ _))
  | index _ => inferInstanceAs (Decidable (_ < _))

end Step

namespace Path

variable {s t name digits rest : Text} {position : Nat} {steps : List Step}

/-! ### Indexes -/

theorem index?_digits (nonempty : digits ≠ []) (all : ∀ c ∈ digits, Formula.Digit c) :
    index? digits =
      if Text.digitsValue digits < Amount.unsignedLimit then some (Text.digitsValue digits)
      else none := by
  obtain ⟨c, more, rfl⟩ := List.exists_cons_of_ne_nil nonempty
  have plus : '+' ≠ c := by
    rintro rfl
    exact absurd (all '+' List.mem_cons_self) (by decide)
  have bare : (Text.after? ['+'] (c :: more)).getD (c :: more) = c :: more := by
    rw [Text.after?, if_neg plus]
    rfl
  have digit : (c :: more).all Char.isDigit = true :=
    List.all_eq_true.mpr fun d hd => Formula.isDigit_iff.mpr (all d hd)
  simp only [index?, bare, digit, ne_eq, reduceCtorEq, not_false_iff, true_and]

theorem index?_ofNat (below : position < Amount.unsignedLimit) :
    index? (Text.ofNat position) = some position := by
  obtain ⟨nonempty, all⟩ := Formula.digits_ofNat position
  rw [index?_digits nonempty all, Formula.digitsValue_ofNat, if_pos below]

theorem lt_of_index? (h : index? t = some position) : position < Amount.unsignedLimit := by
  obtain ⟨conditions, same⟩ := Option.ite_none_right_eq_some.mp h
  cases same
  exact conditions.2.2

theorem indexes?_nil : indexes? [] = some [] := by
  rw [indexes?]

theorem indexes?_bracket (inside : ']' ∉ digits) :
    indexes? ('[' :: (digits ++ ']' :: rest)) =
      (index? digits).bind fun position => (indexes? rest).map (.index position :: ·) := by
  rw [indexes?]
  split
  · next none =>
    rw [Text.splitOnce_append inside] at none
    cases none
  · next front behind found =>
    rw [Text.splitOnce_append inside] at found
    cases found
    cases index? digits <;> cases indexes? rest <;> rfl

theorem indexes?_unclosed (open_ : ']' ∉ t) : indexes? ('[' :: t) = none := by
  rw [indexes?]
  split
  · rfl
  · next front behind found =>
    rw [Text.splitOnce_eq_none.mpr open_] at found
    cases found

/-- What indexes are read from. -/
theorem of_indexes? (h : indexes? t = some steps) :
    t = [] ∧ steps = [] ∨ ∃ digits rest position more, t = '[' :: (digits ++ ']' :: rest) ∧
      ']' ∉ digits ∧ index? digits = some position ∧ indexes? rest = some more ∧
      steps = .index position :: more := by
  unfold indexes? at h
  split at h
  · cases h
    exact .inl ⟨rfl, rfl⟩
  · next t =>
    split at h
    · cases h
    · next digits rest found =>
      obtain ⟨rfl, inside⟩ := Text.eq_of_splitOnce found
      obtain ⟨position, read, h⟩ := Option.bind_eq_some_iff.mp h
      obtain ⟨more, read', h⟩ := Option.bind_eq_some_iff.mp h
      cases h
      exact .inr ⟨digits, rest, position, more, rfl, inside, read, read', rfl⟩
  · cases h

theorem proper_of_indexes? (h : indexes? t = some steps) : ∀ step ∈ steps, step.Proper := by
  induction hn : t.length using Nat.strongRecOn generalizing t steps with
  | ind n ih =>
    subst hn
    obtain ⟨rfl, rfl⟩ | ⟨digits, rest, position, more, rfl, -, read, read', rfl⟩ := of_indexes? h
    · exact fun step mem => nomatch mem
    · have shorter : rest.length < ('[' :: (digits ++ ']' :: rest)).length := by
        simp only [List.length_cons, List.length_append]
        omega
      exact List.forall_mem_cons.mpr ⟨lt_of_index? read, ih _ shorter read' rfl⟩

/-! ### Parts -/

/-- What is behind the key of a part: nothing, or indexes. -/
def Bracketed (rest : Text) : Prop :=
  rest = [] ∨ ∃ t, rest = '[' :: t

theorem exists_part (part : Text) :
    ∃ key rest, part = key ++ rest ∧ '[' ∉ key ∧ Bracketed rest := by
  cases found : Text.splitOnce '[' part with
  | none => exact ⟨part, [], (List.append_nil part).symm, Text.splitOnce_eq_none.mp found, .inl rfl⟩
  | some cut =>
    obtain ⟨split, outside⟩ := Text.eq_of_splitOnce found
    exact ⟨cut.1, '[' :: cut.2, split, outside, .inr ⟨cut.2, rfl⟩⟩

theorem part?_append {key : Text} (outside : '[' ∉ key) (ends : Bracketed rest) :
    part? (key ++ rest) =
      if key = [] ∧ rest = [] then none
      else (indexes? rest).map fun steps => if key = [] then steps else .key key :: steps := by
  have inside : ∀ c ∈ key, decide (c ≠ '[') = true := by
    intro c hc
    simp only [decide_eq_true_eq]
    rintro rfl
    exact outside hc
  have taken : (key ++ rest).takeWhile (fun c => decide (c ≠ '[')) = key := by
    apply Formula.Token.takeWhile_append_stop inside
    rcases ends with rfl | ⟨t, rfl⟩ <;> simp
  have dropped : (key ++ rest).dropWhile (fun c => decide (c ≠ '[')) = rest := by
    rw [List.dropWhile_append_of_pos inside]
    rcases ends with rfl | ⟨t, rfl⟩ <;> simp
  simp only [part?, taken, dropped]

theorem part?_key (nonempty : name ≠ []) (outside : '[' ∉ name) (ends : Bracketed rest) :
    part? (name ++ rest) = (indexes? rest).map (.key name :: ·) := by
  rw [part?_append outside ends]
  simp only [nonempty, false_and, if_false]

theorem of_part? (unpointed : '.' ∉ t) (h : part? t = some steps) :
    steps ≠ [] ∧ ∀ step ∈ steps, step.Proper := by
  obtain ⟨key, rest, rfl, outside, ends⟩ := exists_part t
  rw [part?_append outside ends] at h
  split at h
  · cases h
  next nonempty =>
    obtain ⟨indexes, read, rfl⟩ := Option.map_eq_some_iff.mp h
    have proper := proper_of_indexes? read
    by_cases empty : key = []
    · rw [if_pos empty]
      refine ⟨?_, proper⟩
      rintro rfl
      obtain ⟨rfl, -⟩ | ⟨_, _, _, _, _, _, _, _, nil⟩ := of_indexes? read
      · exact nonempty ⟨empty, rfl⟩
      · cases nil
    · rw [if_neg empty]
      have key_proper : (Step.key key).Proper :=
        ⟨empty, fun mem => unpointed (List.mem_append_left _ mem), outside⟩
      exact ⟨List.cons_ne_nil _ _, List.forall_mem_cons.mpr ⟨key_proper, proper⟩⟩

/-! ### Paths -/

/-- A path is one part, or a part, a point and a path. -/
theorem point_induction {P : Text → Prop} (part : ∀ t, '.' ∉ t → P t)
    (point : ∀ s t, '.' ∉ s → P t → P (s ++ '.' :: t)) (t : Text) : P t := by
  induction hn : t.length using Nat.strongRecOn generalizing t with
  | ind n ih =>
    subst hn
    cases found : Text.splitOnce '.' t with
    | none => exact part t (Text.splitOnce_eq_none.mp found)
    | some cut =>
      obtain ⟨front, behind⟩ := cut
      obtain ⟨rfl, outside⟩ := Text.eq_of_splitOnce found
      have shorter : behind.length < (front ++ '.' :: behind).length := by
        simp only [List.length_append, List.length_cons]
        omega
      exact point front behind outside (ih _ shorter behind rfl)

theorem steps?_part (h : '.' ∉ t) : steps? t = part? t := by
  rw [steps?, List.splitOn_eq_singleton h]
  cases read : part? t <;> simp [List.mapM_cons, read]

theorem steps?_point (s t : Text) :
    steps? (s ++ '.' :: t) = (steps? s).bind fun front => (steps? t).map (front ++ ·) := by
  rw [steps?, List.splitOn_append_cons_self, List.mapM_append, steps?, steps?]
  cases (s.splitOn '.').mapM part? <;> cases (t.splitOn '.').mapM part? <;> simp

/-- A path that is read has a step, and its steps can be printed. -/
theorem of_steps? (h : steps? t = some steps) : steps ≠ [] ∧ ∀ step ∈ steps, step.Proper := by
  induction t using point_induction generalizing steps with
  | part t unpointed =>
    rw [steps?_part unpointed] at h
    exact of_part? unpointed h
  | point s t unpointed ih =>
    rw [steps?_point] at h
    obtain ⟨front, read, h⟩ := Option.bind_eq_some_iff.mp h
    obtain ⟨behind, read', rfl⟩ := Option.map_eq_some_iff.mp h
    rw [steps?_part unpointed] at read
    obtain ⟨nonempty, proper⟩ := of_part? unpointed read
    exact ⟨List.append_ne_nil_of_left_ne_nil nonempty _,
      List.forall_mem_append.mpr ⟨proper, (ih read').2⟩⟩

end Path

end RuleText
