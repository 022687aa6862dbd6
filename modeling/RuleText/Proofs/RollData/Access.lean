import RuleText.Proofs.RollData.Offsets
import RuleText.RollData.Basic

/-!
# Access paths

An access path is a key and what follows it, keys and indexes in any order. It is printed with
a point before each further key and with brackets around each index. The printed path is read
as the same steps, and it leads to the value that one reaches by walking through the JSON value
step by step.

There are more texts that are read as a path than printed ones: a point may stand before a
bracket, and an index may be padded or have a sign. Each of them is read as the steps of an
access path and leads to the same value. A text that is not read, or whose first step is an
index, leads nowhere.
-/

namespace RuleText

/-- A further step as it is printed. -/
def Step.text : Step → Text
  | key name => '.' :: name
  | index position => '[' :: (Text.ofNat position ++ [']'])

/-- A key with the steps that follow it. -/
structure Access where
  name : Text
  more : List Step
  proper : ∀ step ∈ Step.key name :: more, step.Proper

namespace Access

/-- All steps. -/
def steps (a : Access) : List Step :=
  .key a.name :: a.more

/-- The path as it is printed. -/
def text (a : Access) : Text :=
  a.name ++ a.more.flatMap Step.text

end Access

/-- Walking through a value: into an object by a key, into an array by an index. -/
inductive Walks : Json → List Step → Json → Prop
  | stay (value : Json) : Walks value [] value
  | field {fields : List (Text × Json)} {name : Text} {value target : Json} {more : List Step} :
      Keyed.find? name fields = some value → Walks value more target →
      Walks (.object fields) (.key name :: more) target
  | element {elements : List Json} {position : Nat} {value target : Json} {more : List Step} :
      elements[position]? = some value → Walks value more target →
      Walks (.array elements) (.index position :: more) target

/-! ### Reading a printed path -/

namespace Path

variable {name : Text} {positions : List Nat} {more : List Step}

theorem unpointed_indexes (positions : List Nat) :
    '.' ∉ (positions.map Step.index).flatMap Step.text := by
  rw [List.mem_flatMap]
  rintro ⟨step, mem, inside⟩
  obtain ⟨position, -, rfl⟩ := List.mem_map.mp mem
  have digits := (Formula.digits_ofNat position).2 '.'
  simp only [Step.text, List.mem_cons, List.mem_append, List.not_mem_nil, or_false] at inside
  obtain bracket | digit | bracket := inside
  · exact absurd bracket (by decide)
  · exact absurd (digits digit) (by decide)
  · exact absurd bracket (by decide)

theorem bracketed_indexes (positions : List Nat) :
    Bracketed ((positions.map Step.index).flatMap Step.text) := by
  cases positions with
  | nil => exact .inl rfl
  | cons position positions => exact .inr ⟨_, rfl⟩

theorem indexes?_printed (proper : ∀ step ∈ positions.map Step.index, step.Proper) :
    indexes? ((positions.map Step.index).flatMap Step.text) = some (positions.map Step.index) := by
  induction positions with
  | nil => exact indexes?_nil
  | cons position positions ih =>
    obtain ⟨first, rest⟩ := List.forall_mem_cons.mp proper
    have inside : ']' ∉ Text.ofNat position := fun mem =>
      absurd ((Formula.digits_ofNat position).2 ']' mem) (by decide)
    have split : ((position :: positions).map Step.index).flatMap Step.text =
        '[' :: (Text.ofNat position ++ ']' :: (positions.map Step.index).flatMap Step.text) := by
      simp [Step.text]
    rw [split, indexes?_bracket inside, index?_ofNat first, ih rest]
    rfl

/-- A key and its indexes are one part. -/
theorem steps?_indexed (key : (Step.key name).Proper)
    (proper : ∀ step ∈ positions.map Step.index, step.Proper) :
    steps? (name ++ (positions.map Step.index).flatMap Step.text) =
      some (.key name :: positions.map Step.index) := by
  have unpointed : '.' ∉ name ++ (positions.map Step.index).flatMap Step.text := by
    rw [List.mem_append, not_or]
    exact ⟨key.2.1, unpointed_indexes positions⟩
  rw [steps?_part unpointed, part?_key key.1 key.2.2 (bracketed_indexes positions),
    indexes?_printed proper]
  rfl

/-- Each further key begins another part. The induction goes through the steps; `positions` are
the indexes since the last key. -/
theorem steps?_printed (positions : List Nat) (key : (Step.key name).Proper)
    (proper : ∀ step ∈ positions.map Step.index ++ more, step.Proper) :
    steps? (name ++ (positions.map Step.index ++ more).flatMap Step.text) =
      some (.key name :: (positions.map Step.index ++ more)) := by
  induction more generalizing name positions with
  | nil =>
    rw [List.append_nil] at proper ⊢
    exact steps?_indexed key proper
  | cons step more ih =>
    cases step with
    | key next =>
      obtain ⟨indexed, further⟩ := List.forall_mem_append.mp proper
      obtain ⟨first, rest⟩ := List.forall_mem_cons.mp further
      have behind : steps? (next ++ more.flatMap Step.text) = some (.key next :: more) :=
        ih [] first rest
      have split : name ++ (positions.map Step.index ++ .key next :: more).flatMap Step.text =
          name ++ (positions.map Step.index).flatMap Step.text ++
            '.' :: (next ++ more.flatMap Step.text) := by
        simp [Step.text]
      rw [split, steps?_point, steps?_indexed key indexed, behind]
      rfl
    | index position =>
      have regroup : positions.map Step.index ++ .index position :: more =
          (positions ++ [position]).map Step.index ++ more := by simp
      rw [regroup] at proper ⊢
      exact ih (positions ++ [position]) key proper

end Path

/-- A printed path is read as its steps. -/
theorem Access.steps?_text (a : Access) : Path.steps? a.text = some a.steps := by
  obtain ⟨key, rest⟩ := List.forall_mem_cons.mp a.proper
  exact Path.steps?_printed [] key rest

/-- Steps that have been read with a key first are those of an access path. -/
theorem Path.exists_access {t name : Text} {more : List Step}
    (h : Path.steps? t = some (.key name :: more)) : ∃ a : Access, a.steps = .key name :: more :=
  ⟨⟨name, more, (Path.of_steps? h).2⟩, rfl⟩

/-! ### Looking up -/

theorem foldlM_follow?_iff {steps : List Step} {value target : Json} :
    steps.foldlM (fun value step => step.follow? value) value = some target ↔
      Walks value steps target := by
  induction steps generalizing value with
  | nil =>
    constructor
    · rintro ⟨⟩
      exact .stay _
    · rintro ⟨⟩
      rfl
  | cons step more ih =>
    rw [List.foldlM_cons]
    constructor
    · intro h
      obtain ⟨next, followed, h⟩ := Option.bind_eq_some_iff.mp h
      have walks := ih.mp h
      cases step with
      | key name =>
        cases value with
        | object fields => exact .field followed walks
        | _ => cases followed
      | index position =>
        cases value with
        | array elements => exact .element followed walks
        | _ => cases followed
    · rintro (_ | ⟨found, walks⟩ | ⟨found, walks⟩)
      · exact Option.bind_eq_some_iff.mpr ⟨_, found, ih.mpr walks⟩
      · exact Option.bind_eq_some_iff.mpr ⟨_, found, ih.mpr walks⟩

namespace RollData

/-- Looking up the text gives the value to which the steps lead. If they lead nowhere, the
error holds the text. -/
def Finds (data : RollData) (path : Text) (steps : List Step) : Prop :=
  (∃ value, Walks (.object data.names) steps value ∧ data.lookup path = .ok value) ∨
    (∀ value, ¬ Walks (.object data.names) steps value) ∧ data.lookup path = .error ⟨path⟩

variable {data : RollData} {t t' : Text} {steps : List Step}

theorem finds_of_steps? (h : Path.steps? t = some steps) : data.Finds t steps := by
  unfold Finds lookup
  rw [h]
  dsimp only
  cases found : steps.foldlM (fun value step => step.follow? value) (.object data.names) with
  | none =>
    refine .inr ⟨fun value walks => ?_, rfl⟩
    rw [foldlM_follow?_iff.mpr walks] at found
    cases found
  | some value => exact .inl ⟨value, foldlM_follow?_iff.mp found, rfl⟩

theorem lookup_eq_ok_iff {value : Json} : data.lookup t = .ok value ↔
    ∃ steps, Path.steps? t = some steps ∧ Walks (.object data.names) steps value := by
  unfold lookup
  cases Path.steps? t with
  | none => simp
  | some steps =>
    simp only [Option.some.injEq, exists_eq_left', ← foldlM_follow?_iff]
    cases steps.foldlM (fun value step => step.follow? value) (.object data.names) <;> simp

/-- Two texts that are read as the same steps lead to the same values. -/
theorem lookup_congr (h : Path.steps? t = Path.steps? t') (value : Json) :
    data.lookup t = .ok value ↔ data.lookup t' = .ok value := by
  rw [lookup_eq_ok_iff, lookup_eq_ok_iff, h]

/-- The error holds the text. -/
theorem path_of_lookup_error {e : PathError} (h : data.lookup t = .error e) : e = ⟨t⟩ := by
  unfold lookup at h
  split at h
  · cases h
    rfl
  · split at h <;> cases h
    rfl

/-- A text that is not read, or with an index first, leads nowhere. -/
theorem lookup_eq_error (h : ∀ name more, Path.steps? t ≠ some (.key name :: more)) :
    data.lookup t = .error ⟨t⟩ := by
  cases found : data.lookup t with
  | ok value =>
    obtain ⟨steps, read, walks⟩ := lookup_eq_ok_iff.mp found
    cases walks with
    | stay => exact absurd rfl (Path.of_steps? read).1
    | field _ _ => exact absurd read (h _ _)
  | error e => rw [path_of_lookup_error found]

end RollData

/-- Reading undoes printing, and looking up is walking.

A printed access path is read as its steps. Whatever is read with a key first is read again,
as the same steps and with the same value, when it is printed. All texts that are read lead to
the value to which their steps lead or to an error that holds the text, and all other texts
to such an error. No cut that reading makes goes wrong, whatever the text is. -/
theorem steps?_and_lookup_of_printed (data : RollData) (a : Access) (t : Text) :
    (Path.steps? a.text = some a.steps ∧ data.Finds a.text a.steps) ∧
    (∀ name more, Path.steps? t = some (.key name :: more) →
      data.Finds t (.key name :: more) ∧
      ∃ b : Access, b.steps = .key name :: more ∧ Path.steps? b.text = some b.steps ∧
        ∀ value, data.lookup b.text = .ok value ↔ data.lookup t = .ok value) ∧
    ((∀ name more, Path.steps? t ≠ some (.key name :: more)) → data.lookup t = .error ⟨t⟩) ∧
    Path.readByOffsets t ≠ .error .badCut ∧
    Path.readByOffsets t = Path.orStop .malformed (Path.steps? t) := by
  refine ⟨⟨a.steps?_text, RollData.finds_of_steps? a.steps?_text⟩, fun name more read => ?_,
    RollData.lookup_eq_error, ?_, Path.readByOffsets_eq t⟩
  · obtain ⟨b, same⟩ := Path.exists_access read
    refine ⟨RollData.finds_of_steps? read, b, same, b.steps?_text, RollData.lookup_congr ?_⟩
    rw [b.steps?_text, same, read]
  · rw [Path.readByOffsets_eq]
    cases Path.steps? t <;> simp [Path.orStop]

example : Path.steps? "a.[0][+007]".toList = some [.key ['a'], .index 0, .index 7] ∧
    Access.text ⟨['a'], [.index 0, .index 7], by decide⟩ = "a[0][7]".toList := by decide +kernel

end RuleText
