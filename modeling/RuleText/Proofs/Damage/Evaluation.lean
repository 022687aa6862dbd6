import RuleText.Damage.Evaluation
import RuleText.Proofs.Damage.Operations

/-!
# What evaluation does

For each kind of tree there is one statement of what its value is made of when it has
one. Tags do not touch the terms of damage, and the damage of a value is all damage
in it, one group after the other.
-/

namespace RuleText.Damage

open Formula (Node Operator)

/-! ### Values -/

theorem terms_addTag (tag : Text) (i : Instance) :
    (i.addTag tag).groups.map Group.terms = i.groups.map Group.terms := by
  simp [Instance.addTag]

mutual

/-- Tags leave the terms of all groups alone. -/
theorem terms_addTo {i i' : Instance} (v : Value) (h : v.addTo i = .ok i') :
    i'.groups.map Group.terms = i.groups.map Group.terms := by
  cases v with
  | number n => cases h
  | name tag =>
    cases h
    exact terms_addTag tag i
  | damage j => cases h
  | tuple items =>
    rw [Value.addTo] at h
    exact terms_addAllTo items h

theorem terms_addAllTo {i i' : Instance} (items : List Value)
    (h : Value.addAllTo i items = .ok i') :
    i'.groups.map Group.terms = i.groups.map Group.terms := by
  cases items with
  | nil =>
    cases h
    rfl
  | cons v more =>
    rw [Value.addAllTo] at h
    obtain ⟨j, first, rest⟩ := bind_eq_ok.mp h
    exact (terms_addAllTo more rest).trans (terms_addTo v first)

end

mutual

/-- The groups of all damage in a value, in order. -/
def Value.groups : Value → List Group
  | .number n => [.ofTerm (.constant n.toAmount)]
  | .name _ => []
  | .damage i => i.groups
  | .tuple items => groupsOfAll items

/-- The groups of all damage in values. -/
def Value.groupsOfAll : List Value → List Group
  | [] => []
  | v :: more => v.groups ++ groupsOfAll more

end

mutual

theorem groups_toDamage {i : Instance} (v : Value) (h : v.toDamage = .ok i) :
    i.groups = v.groups := by
  cases v with
  | number n =>
    cases h
    rfl
  | name n => cases h
  | damage j =>
    cases h
    rfl
  | tuple items =>
    cases items with
    | nil => cases h
    | cons v more =>
      rw [Value.toDamage] at h
      obtain ⟨j, first, rest⟩ := bind_eq_ok.mp h
      rw [groups_appendAll more rest, groups_toDamage v first, Value.groups, Value.groupsOfAll]

theorem groups_appendAll {i i' : Instance} (items : List Value)
    (h : Value.appendAll i items = .ok i') :
    i'.groups = i.groups ++ Value.groupsOfAll items := by
  cases items with
  | nil =>
    cases h
    simp [Value.groupsOfAll]
  | cons v more =>
    rw [Value.appendAll] at h
    obtain ⟨j, first, rest⟩ := bind_eq_ok.mp h
    rw [groups_appendAll more rest, Instance.append, groups_toDamage v first, Value.groupsOfAll,
      List.append_assoc]

end

/-- An operation on two plain numbers. -/
def arithmetic : Operator → Number → Number → Except EvalError Number
  | .add => Number.add
  | .sub => Number.sub
  | .mul => Number.mul
  | .div => Number.div

/-- The third value is what the operator makes of the other two. -/
inductive Combines (op : Operator) : Value → Value → Value → Prop
  | numbers {x y z : Number} : arithmetic op x y = .ok z →
      Combines op (.number x) (.number y) (.number z)
  | damageNumber {i i' : Instance} {n : Number} : (i.apply op n.toAmount).toExcept = .ok i' →
      Combines op (.damage i) (.number n) (.damage i')
  | numberDamage {i i' : Instance} {n : Number} : op = .add ∨ op = .mul →
      (i.apply op n.toAmount).toExcept = .ok i' →
      Combines op (.number n) (.damage i) (.damage i')
  | damages {i j k : Instance} : op = .add → i.merge j = .ok k →
      Combines op (.damage i) (.damage j) (.damage k)

theorem combines_of_binary {op : Operator} {a b v : Value} (h : Value.binary op a b = .ok v) :
    Combines op a b v := by
  cases a with
  | number x =>
    cases b with
    | number y =>
      have numbers : (arithmetic op x y).map Value.number = .ok v := by
        cases op <;> exact h
      obtain ⟨z, result, rfl⟩ := map_eq_ok.mp numbers
      exact .numbers result
    | damage i =>
      rw [Value.binary] at h
      by_cases commutes : op = .add ∨ op = .mul
      · rw [if_pos commutes] at h
        obtain ⟨i', applied, rfl⟩ := map_eq_ok.mp h
        exact .numberDamage commutes applied
      · rw [if_neg commutes] at h
        cases h
    | name n => cases h
    | tuple items => cases h
  | damage i =>
    cases b with
    | number n =>
      obtain ⟨i', applied, rfl⟩ := map_eq_ok.mp h
      exact .damageNumber applied
    | damage j =>
      rw [Value.binary] at h
      by_cases add : op = .add
      · rw [if_pos add] at h
        obtain ⟨k, merged, rfl⟩ := map_eq_ok.mp h
        exact .damages add merged
      · rw [if_neg add] at h
        cases h
    | name n => cases h
    | tuple items => cases h
  | name n => cases h
  | tuple items => cases h

/-! ### Trees -/

-- The equations are made here once, not in each proof that rewrites with them.
attribute [grind =] evaluate evaluateAll evaluateTags evaluateNumbers

variable {data : RollData} {node left right : Node} {op : Operator} {v : Value}

theorem of_evaluate_negate (h : evaluate data (.negate node) = .ok v) :
    ∃ n m, evaluate data node = .ok (.number n) ∧ n.neg = .ok m ∧ v = .number m := by
  rw [evaluate] at h
  obtain ⟨a, value, h⟩ := bind_eq_ok.mp h
  cases a with
  | number n =>
    obtain ⟨m, opposite, same⟩ := bind_eq_ok.mp h
    cases same
    exact ⟨n, m, value, opposite, rfl⟩
  | name n => cases h
  | damage i => cases h
  | tuple items => cases h

theorem of_evaluate_binary (h : evaluate data (.binary left op right) = .ok v) :
    ∃ a b, evaluate data left = .ok a ∧ evaluate data right = .ok b ∧ Combines op a b v := by
  rw [evaluate] at h
  obtain ⟨a, value, h⟩ := bind_eq_ok.mp h
  obtain ⟨b, value', h⟩ := bind_eq_ok.mp h
  exact ⟨a, b, value, value', combines_of_binary h⟩

theorem of_evaluate_tuple {items : List Node} (h : evaluate data (.tuple items) = .ok v) :
    ∃ vs, evaluateAll data items = .ok vs ∧ v = .tuple vs := by
  rw [evaluate] at h
  obtain ⟨vs, values, same⟩ := bind_eq_ok.mp h
  cases same
  exact ⟨vs, values, rfl⟩

theorem forall₂_of_evaluateAll {items : List Node} {vs : List Value}
    (h : evaluateAll data items = .ok vs) :
    List.Forall₂ (fun node v => evaluate data node = .ok v) items vs := by
  induction items generalizing vs with
  | nil =>
    rw [evaluateAll] at h
    cases h
    exact .nil
  | cons node more ih =>
    rw [evaluateAll] at h
    obtain ⟨v, value, h⟩ := bind_eq_ok.mp h
    obtain ⟨vs, values, same⟩ := bind_eq_ok.mp h
    cases same
    exact .cons value (ih values)

theorem terms_evaluateTags {tags : List Node} {i i' : Instance}
    (h : evaluateTags data i tags = .ok i') :
    i'.groups.map Group.terms = i.groups.map Group.terms := by
  induction tags generalizing i with
  | nil =>
    rw [evaluateTags] at h
    cases h
    rfl
  | cons node more ih =>
    rw [evaluateTags] at h
    obtain ⟨v, -, h⟩ := bind_eq_ok.mp h
    obtain ⟨j, tagged, h⟩ := bind_eq_ok.mp h
    exact (ih h).trans (terms_addTo v tagged)

theorem of_evaluate_tagged {tags : List Node} (h : evaluate data (.tagged node tags) = .ok v) :
    ∃ u i i', evaluate data node = .ok u ∧ u.toDamage = .ok i ∧
      i'.groups.map Group.terms = i.groups.map Group.terms ∧ v = .damage i' := by
  rw [evaluate] at h
  obtain ⟨u, value, h⟩ := bind_eq_ok.mp h
  obtain ⟨i, damage, h⟩ := bind_eq_ok.mp h
  obtain ⟨i', tagged, same⟩ := bind_eq_ok.mp h
  cases same
  exact ⟨u, i, i', value, damage, terms_evaluateTags tagged, rfl⟩

/-- A function gives a number, or dice with at least one die and at least one side. -/
theorem of_call {f : Function} {args : List Number} (h : f.call args = .ok v) :
    (∃ n, v = .number n) ∨
      ∃ count size : Amount, 1 ≤ count.toInt ∧ 1 ≤ size.toInt ∧
        v = .damage (.ofTerm (.dice (.new count size))) := by
  unfold Function.call at h
  split at h
  · next count size =>
    by_cases refused : count.toAmount.toInt < 1 ∨ size.toAmount.toInt < 1
    · simp only [if_pos refused] at h
      cases h
    · simp only [if_neg refused] at h
      cases h
      obtain ⟨some, sides⟩ := not_or.mp refused
      exact .inr ⟨_, _, Int.not_lt.mp some, Int.not_lt.mp sides, rfl⟩
  all_goals
    cases h
  all_goals exact .inl ⟨_, rfl⟩

theorem of_evaluate_call {function : Text} {args : List Node}
    (h : evaluate data (.call function args) = .ok v) :
    (∃ n, v = .number n) ∨
      ∃ count size : Amount, 1 ≤ count.toInt ∧ 1 ≤ size.toInt ∧
        v = .damage (.ofTerm (.dice (.new count size))) := by
  rw [evaluate] at h
  cases found : Function.ofName? function with
  | none =>
    rw [found] at h
    cases h
  | some f =>
    rw [found] at h
    by_cases accepted : f.accepts args.length = true
    · simp only [if_pos accepted] at h
      obtain ⟨ns, -, called⟩ := bind_eq_ok.mp h
      exact of_call called
    · simp only [if_neg accepted] at h
      cases h

theorem ofName?_name (f : Function) : Function.ofName? f.name = some f := by
  cases f <;> decide

theorem evaluate_call {f : Function} {args : List Node} (accepted : f.accepts args.length = true) :
    evaluate data (.call f.name args) = evaluateNumbers data f args >>= fun ns => f.call ns := by
  rw [evaluate, ofName?_name]
  exact if_pos accepted

/-- A reference gives a number or a name. -/
theorem of_reference {path : Text} (h : reference data path = .ok v) :
    (∃ n, v = .number n) ∨ ∃ n, v = .name n := by
  unfold reference at h
  split at h
  · cases h
  · split at h <;> cases h
    · exact .inl ⟨_, rfl⟩
    · exact .inl ⟨_, rfl⟩
  · cases h
    exact .inl ⟨_, rfl⟩
  · cases h
    exact .inr ⟨_, rfl⟩
  · cases h

theorem reference_of_integral {path : Text} {n : Int}
    (integral : data.lookup path = .ok (.number (.int n))) (fits : Amount.Fits n) :
    reference data path = .ok (.number (.int (Int64.ofInt n))) := by
  have value : Amount.fit? n = some (Int64.ofInt n) := if_pos fits
  simp only [reference, integral, value]

/-- Damage of a text is the damage of the tree that is parsed from it. -/
theorem of_payload {t : Text} {i : Instance} (h : Payload.ofText data t = .ok (.evaluated i)) :
    ∃ node v, Formula.parse t = .ok node ∧ evaluate data node = .ok v ∧ v.toDamage = .ok i := by
  rw [Payload.ofText] at h
  cases parsed : Formula.parse t with
  | error e =>
    rw [parsed] at h
    cases h
  | ok node =>
    rw [parsed] at h
    obtain ⟨j, evaluated, same⟩ := map_eq_ok.mp h
    cases same
    obtain ⟨v, value, damage⟩ := bind_eq_ok.mp evaluated
    exact ⟨node, v, rfl, value, damage⟩

end RuleText.Damage
