import RuleText.Proofs.Damage.Evaluation

/-!
# Tags of damage

Tags are put behind the tags that are there already. So two lists of tags are one list, lists
inside of a list do not matter, and all that a tagged formula changes in its damage is that the
names of the tags, from left to right, stand behind the tags of every group (`tags_compose`).

A tag is evaluated after the tags before it have been added, and a tuple is evaluated as a whole
before any of it is added. This is why two forms with the same damage may fail with different
errors.
-/

namespace RuleText

/-! ### Names of tags -/

namespace Formula.Node

mutual

/-- The names that a tree stands for as a tag: one name, as written or found in the roll data,
or those of all members of a list, from left to right. No other tree is a tag. -/
def tagNames? (data : RollData) : Node → Option (List Text)
  | name n => some [n]
  | reference path =>
    match data.lookup path with
    | .ok (.string s) => some [s]
    | _ => none
  | parens node => node.tagNames? data
  | tuple items => tagNamesOfAll? data items
  | dice _ _ | integer _ | negate _ | binary _ _ _ | tagged _ _ | call _ _ => none

/-- The names of several tags, one after the other. -/
def tagNamesOfAll? (data : RollData) : List Node → Option (List Text)
  | [] => some []
  | node :: more => do
    let names ← node.tagNames? data
    return names ++ (← tagNamesOfAll? data more)

end

end Formula.Node

namespace Damage

open Formula (Node)

mutual

/-- The names of a value that is a tag. -/
def Value.tagNames? : Value → Option (List Text)
  | name n => some [n]
  | tuple items => tagNamesOfAll? items
  | number _ | damage _ => none

/-- The names of several values. -/
def Value.tagNamesOfAll? : List Value → Option (List Text)
  | [] => some []
  | v :: more => do
    let names ← v.tagNames?
    return names ++ (← tagNamesOfAll? more)

end

/-- Puts names behind the tags of every group. -/
def Instance.addTags (names : List Text) (i : Instance) : Instance :=
  { i with groups := i.groups.map fun g => { g with tags := g.tags ++ names } }

section AddTags

variable (i : Instance) (names more : List Text)

@[simp] theorem addTags_nil : i.addTags [] = i := by
  simp [Instance.addTags]

@[simp] theorem addTags_addTags : (i.addTags names).addTags more = i.addTags (names ++ more) := by
  simp [Instance.addTags]

/-- Some names are added and then others, or all of them at once. -/
theorem exists_addTags_iff {j : Instance} {P Q : List Text → Prop} :
    (∃ k, (∃ front, P front ∧ i.addTags front = k) ∧ ∃ rest, Q rest ∧ k.addTags rest = j) ↔
      ∃ names, (∃ front rest, P front ∧ Q rest ∧ front ++ rest = names) ∧ i.addTags names = j := by
  constructor
  · rintro ⟨_, ⟨front, first, rfl⟩, rest, others, rfl⟩
    exact ⟨front ++ rest, ⟨front, rest, first, others, rfl⟩, (addTags_addTags i front rest).symm⟩
  · rintro ⟨_, ⟨front, rest, first, others, rfl⟩, rfl⟩
    exact ⟨_, ⟨front, first, rfl⟩, rest, others, addTags_addTags i front rest⟩

end AddTags

theorem names_append_eq_some_iff {a b : Option (List Text)} {names : List Text} :
    (do let front ← a
        return front ++ (← b)) = some names ↔
      ∃ front rest, a = some front ∧ b = some rest ∧ front ++ rest = names := by
  simp [Option.bind_eq_some_iff]

mutual

/-- A value can be a tag exactly if it has names, and then it adds these. -/
theorem addTo_eq_ok_iff {i j : Instance} (v : Value) :
    v.addTo i = .ok j ↔ ∃ names, v.tagNames? = some names ∧ i.addTags names = j := by
  cases v with
  | number n => simp [Value.addTo, Value.tagNames?]
  | name tag => simp [Value.addTo, Value.tagNames?, Instance.addTag, Instance.addTags]
  | damage j => simp [Value.addTo, Value.tagNames?]
  | tuple items =>
    rw [Value.addTo, Value.tagNames?]
    exact addAllTo_eq_ok_iff items

theorem addAllTo_eq_ok_iff {i j : Instance} (items : List Value) :
    Value.addAllTo i items = .ok j ↔
      ∃ names, Value.tagNamesOfAll? items = some names ∧ i.addTags names = j := by
  cases items with
  | nil => simp [Value.addAllTo, Value.tagNamesOfAll?]
  | cons v more =>
    rw [Value.addAllTo, bind_eq_ok, Value.tagNamesOfAll?]
    simp only [names_append_eq_some_iff, addTo_eq_ok_iff v, addAllTo_eq_ok_iff more]
    exact exists_addTags_iff i

end

/-! ### Names of trees and of their values -/

section Names

variable {data : RollData} {names : List Text} {v : Value}

theorem tagNames?_reference (path : Text) :
    (Node.reference path).tagNames? data = some names ↔
      ∃ v, reference data path = .ok v ∧ v.tagNames? = some names := by
  rw [reference, Node.tagNames?]
  cases data.lookup path with
  | error e => simp
  | ok json =>
    cases json with
    | number n =>
      cases n with
      | int n => cases found : Amount.fit? n <;> simp [found, Value.tagNames?]
      | float x => simp [Value.tagNames?]
    | string s => simp [Value.tagNames?]
    | null => simp
    | bool b => simp
    | array elements => simp
    | object fields => simp

/-- Signs, operators, tagged damage and functions have no names as their values. -/
theorem tagNames?_combines {op : Formula.Operator} {a b : Value} (h : Combines op a b v) :
    v.tagNames? = none := by
  cases h <;> rfl

theorem tagNames?_of_call {function : Text} {args : List Node}
    (h : evaluate data (.call function args) = .ok v) : v.tagNames? = none := by
  obtain ⟨n, rfl⟩ | ⟨count, size, -, -, rfl⟩ := of_evaluate_call h
  · rfl
  · rfl

mutual

theorem tagNames?_eq_some_iff (node : Node) (names : List Text) :
    node.tagNames? data = some names ↔
      ∃ v, evaluate data node = .ok v ∧ v.tagNames? = some names := by
  have none_of (no : node.tagNames? data = none)
      (h : ∀ v, evaluate data node = .ok v → v.tagNames? = none) :
      node.tagNames? data = some names ↔
        ∃ v, evaluate data node = .ok v ∧ v.tagNames? = some names := by
    refine iff_of_false (by simp [no]) ?_
    rintro ⟨v, value, tag⟩
    rw [h v value] at tag
    cases tag
  cases node with
  | dice count size => simp [Node.tagNames?, evaluate, Value.tagNames?]
  | integer n => simp [Node.tagNames?, evaluate, Value.tagNames?]
  | name n => simp [Node.tagNames?, evaluate, Value.tagNames?]
  | reference path =>
    rw [evaluate]
    exact tagNames?_reference path
  | negate node =>
    refine none_of (by rw [Node.tagNames?]) fun v h => ?_
    obtain ⟨n, m, -, -, rfl⟩ := of_evaluate_negate h
    rfl
  | binary left op right =>
    refine none_of (by rw [Node.tagNames?]) fun v h => ?_
    obtain ⟨a, b, -, -, combined⟩ := of_evaluate_binary h
    exact tagNames?_combines combined
  | parens node =>
    rw [evaluate, Node.tagNames?]
    exact tagNames?_eq_some_iff node names
  | tuple items =>
    rw [Node.tagNames?, tagNamesOfAll?_eq_some_iff items names]
    constructor
    · rintro ⟨vs, values, tags⟩
      exact ⟨.tuple vs, by rw [evaluate, values]; rfl, tags⟩
    · rintro ⟨v, value, tags⟩
      obtain ⟨vs, values, rfl⟩ := of_evaluate_tuple value
      exact ⟨vs, values, tags⟩
  | tagged node tags =>
    refine none_of (by rw [Node.tagNames?]) fun v h => ?_
    obtain ⟨u, i, i', -, -, -, rfl⟩ := of_evaluate_tagged h
    rfl
  | call function args =>
    exact none_of (by rw [Node.tagNames?]) fun v => tagNames?_of_call

theorem tagNamesOfAll?_eq_some_iff (nodes : List Node) (names : List Text) :
    Node.tagNamesOfAll? data nodes = some names ↔
      ∃ vs, evaluateAll data nodes = .ok vs ∧ Value.tagNamesOfAll? vs = some names := by
  cases nodes with
  | nil => simp [Node.tagNamesOfAll?, evaluateAll, Value.tagNamesOfAll?]
  | cons node more =>
    rw [Node.tagNamesOfAll?, names_append_eq_some_iff, evaluateAll]
    simp only [tagNames?_eq_some_iff node, tagNamesOfAll?_eq_some_iff more, bind_eq_ok]
    constructor
    · rintro ⟨front, rest, ⟨v, value, first⟩, ⟨vs, values, others⟩, rfl⟩
      refine ⟨v :: vs, ⟨v, value, vs, values, rfl⟩, ?_⟩
      exact names_append_eq_some_iff.mpr ⟨front, rest, first, others, rfl⟩
    · rintro ⟨_, ⟨v, value, vs, values, ⟨⟩⟩, tags⟩
      obtain ⟨front, rest, first, others, rfl⟩ := names_append_eq_some_iff.mp tags
      exact ⟨front, rest, ⟨v, value, first⟩, ⟨vs, values, others⟩, rfl⟩

end

end Names

/-! ### Tagged trees -/

section Tagged

variable {data : RollData} {i j : Instance}

theorem evaluateTags_append (i : Instance) (ts us : List Node) :
    evaluateTags data i (ts ++ us) =
      evaluateTags data i ts >>= fun j => evaluateTags data j us := by
  induction ts generalizing i with
  | nil => rfl
  | cons node more ih =>
    rw [List.cons_append, evaluateTags, evaluateTags]
    simp only [ih, bind_assoc]

theorem tag_eq_ok_iff (node : Node) :
    (evaluate data node >>= fun tag => tag.addTo i) = .ok j ↔
      ∃ names, node.tagNames? data = some names ∧ i.addTags names = j := by
  rw [bind_eq_ok]
  simp only [addTo_eq_ok_iff, tagNames?_eq_some_iff]
  constructor
  · rintro ⟨v, value, names, tag, added⟩
    exact ⟨names, ⟨v, value, tag⟩, added⟩
  · rintro ⟨names, ⟨v, value, tag⟩, added⟩
    exact ⟨v, value, names, tag, added⟩

/-- Adding one tag after the other adds all names. -/
theorem evaluateTags_eq_ok_iff (tags : List Node) :
    evaluateTags data i tags = .ok j ↔
      ∃ names, Node.tagNamesOfAll? data tags = some names ∧ i.addTags names = j := by
  induction tags generalizing i with
  | nil => simp [evaluateTags, Node.tagNamesOfAll?]
  | cons node more ih =>
    rw [evaluateTags, ← bind_assoc, bind_eq_ok, Node.tagNamesOfAll?]
    simp only [names_append_eq_some_iff, tag_eq_ok_iff, ih]
    exact exists_addTags_iff i

theorem evaluate_tagged (node : Node) (tags : List Node) :
    evaluate data (.tagged node tags) = do
      let i ← evaluateDamage data node
      return .damage (← evaluateTags data i tags) := by
  rw [evaluate, evaluateDamage]
  simp only [bind_assoc]

theorem evaluateDamage_tagged (node : Node) (tags : List Node) :
    evaluateDamage data (.tagged node tags) =
      evaluateDamage data node >>= fun i => evaluateTags data i tags := by
  rw [evaluateDamage, evaluate_tagged]
  simp only [bind_assoc, pure_bind, Value.toDamage]
  exact congrArg _ (funext fun i => bind_pure _)

theorem evaluate_tagged_eq_ok_iff (node : Node) (tags : List Node) (v : Value) :
    evaluate data (.tagged node tags) = .ok v ↔
      ∃ i names, evaluateDamage data node = .ok i ∧
        Node.tagNamesOfAll? data tags = some names ∧ .damage (i.addTags names) = v := by
  rw [evaluate_tagged]
  simp only [bind_eq_ok, evaluateTags_eq_ok_iff]
  constructor
  · rintro ⟨i, damage, _, ⟨names, tagged, rfl⟩, ⟨⟩⟩
    exact ⟨i, names, damage, tagged, rfl⟩
  · rintro ⟨i, names, damage, tagged, rfl⟩
    exact ⟨i, damage, _, ⟨names, tagged, rfl⟩, rfl⟩

end Tagged

/-- Tags may be put in one list or in two, one after the other, with the same result, also
where they fail. They may be put into one list inside of a list, and fail then where they failed
before. Where they do not fail, the tagged tree is damage, and its groups have the names of the
tags behind their own and are otherwise the same. -/
theorem tags_compose (data : RollData) (node : Node) (ts us : List Node) :
    evaluate data (.tagged (.tagged node ts) us) = evaluate data (.tagged node (ts ++ us)) ∧
      (∀ v, evaluate data (.tagged node [.tuple ts]) = .ok v ↔
        evaluate data (.tagged node ts) = .ok v) ∧
      ∀ v, evaluate data (.tagged node ts) = .ok v ↔
        ∃ i names, evaluateDamage data node = .ok i ∧
          Node.tagNamesOfAll? data ts = some names ∧ v = .damage (i.addTags names) := by
  refine ⟨?_, fun v => ?_, fun v => ?_⟩
  · rw [evaluate_tagged, evaluate_tagged, evaluateDamage_tagged]
    simp only [evaluateTags_append, bind_assoc]
  · have same : Node.tagNamesOfAll? data [.tuple ts] = Node.tagNamesOfAll? data ts := by
      simp [Node.tagNamesOfAll?, Node.tagNames?]
    rw [evaluate_tagged_eq_ok_iff, evaluate_tagged_eq_ok_iff, same]
  · rw [evaluate_tagged_eq_ok_iff]
    constructor
    · rintro ⟨i, names, damage, tagged, rfl⟩
      exact ⟨i, names, damage, tagged, rfl⟩
    · rintro ⟨i, names, damage, tagged, rfl⟩
      exact ⟨i, names, damage, tagged, rfl⟩

end Damage

end RuleText
