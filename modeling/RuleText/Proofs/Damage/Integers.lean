import Mathlib.Logic.Relation
import RuleText.Proofs.Damage.Conservation
import RuleText.Proofs.Damage.Scaling

/-!
# Formulas of integers

A formula of integers with signs, sums, differences, products, parentheses and roundings has
the value that arithmetic without bounds gives it, if the same holds of each part of it and all
of these values are amounts. If one of them is not, the formula overflows, also where the other
parts would bring the value back into the range (`evaluate_of_isInteger`).
-/

namespace RuleText

open Damage

namespace Formula.Node

/-- The trees that a tree is directly put together from. -/
def parts : Node → List Node
  | dice _ _ | integer _ | name _ | reference _ => []
  | negate node | parens node => [node]
  | binary left _ right => [left, right]
  | tuple items => items
  | tagged node tags => node :: tags
  | call _ args => args

/-- A tree has itself, its parts, their parts and so on as subtrees. -/
def HasSubtree : Node → Node → Prop :=
  Relation.ReflTransGen fun node part => part ∈ node.parts

/-- Trees of integers and integral roll data with signs, sums, differences, products,
parentheses and roundings. -/
inductive IsInteger (data : RollData) : Node → Prop
  | integer (n : Amount) : IsInteger data (.integer n)
  | reference {path : Text} {n : Int} : data.lookup path = .ok (.number (.int n)) →
      Amount.Fits n → IsInteger data (.reference path)
  | negate {node : Node} : IsInteger data node → IsInteger data (.negate node)
  | binary {left right : Node} {op : Operator} : op ≠ .div → IsInteger data left →
      IsInteger data right → IsInteger data (.binary left op right)
  | parens {node : Node} : IsInteger data node → IsInteger data (.parens node)
  | rounded {node : Node} {f : Function} : f = .floor ∨ f = .ceil → IsInteger data node →
      IsInteger data (.call f.name [node])

/-- The value of a tree of integers in arithmetic without bounds. -/
def exact (data : RollData) : Node → Int
  | integer n => n.toInt
  | reference path =>
    match data.lookup path with
    | .ok (.number (.int n)) => n
    | _ => 0
  | negate node => -node.exact data
  | binary left op right => op.exact (left.exact data) (right.exact data)
  | parens node => node.exact data
  | call _ [node] => node.exact data
  | dice _ _ | name _ | tuple _ | tagged _ _ | call _ _ => 0

attribute [grind =] exact

/-- The exact values of a tree and of all its subtrees are amounts. -/
def AllFit (data : RollData) (node : Node) : Prop :=
  ∀ part, node.HasSubtree part → Amount.Fits (part.exact data)

theorem forall_parts_binary {P : Node → Prop} {left right : Node} {op : Operator} :
    (∀ part ∈ (binary left op right).parts, P part) ↔ P left ∧ P right := by
  simp [parts]

theorem allFit_iff {data : RollData} {node : Node} :
    node.AllFit data ↔ Amount.Fits (node.exact data) ∧ ∀ part ∈ node.parts, part.AllFit data := by
  constructor
  · intro fits
    refine ⟨fits node .refl, ?_⟩
    intro part hp inner below
    exact fits inner (.head hp below)
  · rintro ⟨fits, parts⟩ inner below
    obtain rfl | ⟨part, hp, below⟩ := below.cases_head
    · exact fits
    · exact parts part hp inner below

end Formula.Node

namespace Damage

open Formula (Node Operator)

variable {data : RollData} {node left right : Node} {op : Operator} {a b : Amount}

/-! ### One operation -/

/-- An integer as a value, or an overflow if it is no amount. -/
def Value.checked (x : Int) : Except EvalError Value :=
  (EvalError.orOverflow (Amount.fit? x)).map fun a => .number (.int a)

theorem checked_toInt (a : Amount) : Value.checked a.toInt = .ok (.number (.int a)) := by
  rw [Value.checked, Amount.fit?_eq_some_iff.mpr rfl]
  rfl

theorem checked_of_not_fits {x : Int} (h : ¬ Amount.Fits x) :
    Value.checked x = .error .overflow := by
  rw [Value.checked, Amount.fit?_eq_none_iff.mpr h]
  rfl

theorem map_number_orOverflow (x : Option Amount) :
    (EvalError.orOverflow (x.map Number.int)).map Value.number =
      (EvalError.orOverflow x).map fun a => .number (.int a) := by
  cases x with
  | none => rfl
  | some a => rfl

theorem binary_int (exactly : op ≠ .div) :
    Value.binary op (.number (.int a)) (.number (.int b)) =
      Value.checked (op.exact a.toInt b.toInt) := by
  cases op with
  | add => exact map_number_orOverflow _
  | sub => exact map_number_orOverflow _
  | mul => exact map_number_orOverflow _
  | div => contradiction

theorem evaluate_negate_int (value : evaluate data node = .ok (.number (.int a))) :
    evaluate data (.negate node) = Value.checked (-a.toInt) := by
  rw [evaluate, value]
  show Except.map _ (EvalError.orOverflow _) = _
  exact map_number_orOverflow _

/-! ### Whole trees -/

/-- The tree has its exact value, or it overflows because it or a subtree does not fit. -/
structure Exactly (data : RollData) (node : Node) : Prop where
  value : node.AllFit data →
    ∃ a, evaluate data node = .ok (.number (.int a)) ∧ a.toInt = node.exact data
  overflow : ¬ node.AllFit data → evaluate data node = .error .overflow

/-- A tree is exact if its parts are, it fails with them, and it has its exact value, as far as
that fits, where they have theirs. -/
theorem Exactly.of_parts (parts : ∀ part ∈ node.parts, Exactly data part)
    (fails : ∀ part ∈ node.parts, evaluate data part = .error .overflow →
      evaluate data node = .error .overflow)
    (result : (∀ part ∈ node.parts, ∃ a, evaluate data part = .ok (.number (.int a)) ∧
      a.toInt = part.exact data) → evaluate data node = Value.checked (node.exact data)) :
    Exactly data node := by
  constructor
  · intro fits
    obtain ⟨fits, below⟩ := Node.allFit_iff.mp fits
    obtain ⟨a, ha⟩ : ∃ a : Amount, a.toInt = node.exact data :=
      ⟨_, Amount.toInt_ofInt_of_fits fits⟩
    have value := result fun part hp => (parts part hp).value (below part hp)
    rw [← ha, checked_toInt] at value
    exact ⟨a, value, ha⟩
  · intro misfit
    by_cases below : ∀ part ∈ node.parts, part.AllFit data
    · have value := result fun part hp => (parts part hp).value (below part hp)
      rw [value]
      exact checked_of_not_fits fun fits => misfit (Node.allFit_iff.mpr ⟨fits, below⟩)
    · push Not at below
      obtain ⟨part, hp, misfit⟩ := below
      exact fails part hp ((parts part hp).overflow misfit)

theorem Exactly.ok_or_overflow (h : Exactly data node) :
    (∃ a, evaluate data node = .ok (.number (.int a))) ∨
      evaluate data node = .error .overflow := by
  by_cases fits : node.AllFit data
  · obtain ⟨a, value, -⟩ := h.value fits
    exact .inl ⟨a, value⟩
  · exact .inr (h.overflow fits)

theorem exactly_integer (n : Amount) : Exactly data (.integer n) := by
  refine .of_parts (List.forall_mem_nil _) (List.forall_mem_nil _) ?_
  intro _
  rw [evaluate, Node.exact, checked_toInt]

theorem exactly_reference {path : Text} {n : Int}
    (integral : data.lookup path = .ok (.number (.int n))) (fits : Amount.Fits n) :
    Exactly data (.reference path) := by
  refine .of_parts (List.forall_mem_nil _) (List.forall_mem_nil _) ?_
  intro _
  have value : Node.exact data (.reference path) = n := by rw [Node.exact, integral]
  rw [evaluate, reference_of_integral integral fits, value, ← checked_toInt,
    Amount.toInt_ofInt_of_fits fits]

theorem Exactly.negate (h : Exactly data node) : Exactly data (.negate node) := by
  refine .of_parts (List.forall_mem_singleton.mpr h) (List.forall_mem_singleton.mpr ?_) ?_
  · intro failed
    rw [evaluate, failed]
    rfl
  · intro parts
    obtain ⟨a, value, ha⟩ := List.forall_mem_singleton.mp parts
    rw [evaluate_negate_int value, ha, Node.exact]

/-- The right side is not looked at if the left side overflows. -/
theorem Exactly.binary (exactly : op ≠ .div) (hl : Exactly data left) (hr : Exactly data right) :
    Exactly data (.binary left op right) := by
  refine .of_parts (Node.forall_parts_binary.mpr ⟨hl, hr⟩)
    (Node.forall_parts_binary.mpr ⟨?_, ?_⟩) ?_
  · intro failed
    rw [evaluate, failed]
    rfl
  · intro failed
    obtain ⟨a, value⟩ | failed' := hl.ok_or_overflow
    · rw [evaluate, value, failed]
      rfl
    · rw [evaluate, failed']
      rfl
  · intro parts
    obtain ⟨⟨a, value, ha⟩, b, value', hb⟩ := Node.forall_parts_binary.mp parts
    rw [evaluate, value, value', Node.exact, ← ha, ← hb]
    exact binary_int exactly

/-- A tree with one part and the same exact value is exact if it has the same value. -/
theorem Exactly.of_part {outer : Node} (h : Exactly data node) (part : outer.parts = [node])
    (same : outer.exact data = node.exact data)
    (value : ∀ a, evaluate data node = .ok (.number (.int a)) →
      evaluate data outer = .ok (.number (.int a)))
    (fails : evaluate data node = .error .overflow → evaluate data outer = .error .overflow) :
    Exactly data outer := by
  refine .of_parts ?_ ?_ ?_ <;> rw [part]
  · exact List.forall_mem_singleton.mpr h
  · exact List.forall_mem_singleton.mpr fails
  · intro parts
    obtain ⟨a, inner, ha⟩ := List.forall_mem_singleton.mp parts
    rw [value a inner, same, ← ha, checked_toInt]

theorem Exactly.parens (h : Exactly data node) : Exactly data (.parens node) := by
  have same : evaluate data (.parens node) = evaluate data node := by rw [evaluate]
  refine h.of_part rfl rfl ?_ ?_
  · intro a value
    rw [same, value]
  · intro failed
    rw [same, failed]

/-- Rounding leaves integers alone. -/
theorem Exactly.rounded {f : Function} (rounding : f = .floor ∨ f = .ceil)
    (h : Exactly data node) : Exactly data (.call f.name [node]) := by
  have accepted : f.accepts [node].length = true := by obtain rfl | rfl := rounding <;> rfl
  refine h.of_part rfl rfl ?_ ?_
  · intro a value
    rw [evaluate_call accepted, evaluateNumbers, value]
    obtain rfl | rfl := rounding <;> rfl
  · intro failed
    rw [evaluate_call accepted, evaluateNumbers, failed]
    rfl

/-- A tree of integers has the value that arithmetic without bounds gives it, if the value of
each of its subtrees is an amount. If one is not, the tree overflows. -/
theorem evaluate_of_isInteger (integer : Node.IsInteger data node) :
    (node.AllFit data →
        ∃ a, evaluate data node = .ok (.number (.int a)) ∧ a.toInt = node.exact data) ∧
      (¬ node.AllFit data → evaluate data node = .error .overflow) := by
  have exactly : Exactly data node := by
    induction integer with
    | integer n => exact exactly_integer n
    | reference integral fits => exact exactly_reference integral fits
    | negate _ ih => exact ih.negate
    | binary known _ _ ih ih' => exact .binary known ih ih'
    | parens _ ih => exact ih.parens
    | rounded rounding _ ih => exact ih.rounded rounding
  exact ⟨exactly.value, exactly.overflow⟩

/-- Twice the number at `x`, rounded down. -/
def twice : Node :=
  .call Function.floor.name [.binary (.reference "x".toList) .mul (.integer 2)]

/-- The greatest amount with the number at `x` added and subtracted again. -/
def beyondAndBack : Node :=
  .binary (.binary (.integer 9223372036854775807) .add (.reference "x".toList)) .sub
    (.reference "x".toList)

theorem isInteger_x : Node.IsInteger five (.reference "x".toList) :=
  .reference lookup_five (by decide)

theorem exact_x : Node.exact five (.reference "x".toList) = 5 := by
  rw [Node.exact, lookup_five]

theorem allFit_twice : twice.AllFit five := by
  have product : Node.exact five (.binary (.reference "x".toList) .mul (.integer 2)) = 10 := by
    rw [Node.exact, exact_x]
    rfl
  have x : Node.AllFit five (.reference "x".toList) := by
    refine Node.allFit_iff.mpr ⟨?_, List.forall_mem_nil _⟩
    rw [exact_x]
    decide
  have two : Node.AllFit five (.integer 2) :=
    Node.allFit_iff.mpr ⟨by decide, List.forall_mem_nil _⟩
  refine Node.allFit_iff.mpr ⟨?_, List.forall_mem_singleton.mpr (Node.allFit_iff.mpr ⟨?_, ?_⟩)⟩
  · rw [twice, Node.exact, product]
    decide
  · rw [product]
    decide
  · exact Node.forall_parts_binary.mpr ⟨x, two⟩

theorem exact_beyondAndBack : beyondAndBack.exact five = Amount.greatest := by
  rw [beyondAndBack, Node.exact, exact_x, Node.exact, exact_x]
  rfl

theorem not_allFit_beyondAndBack : ¬ beyondAndBack.AllFit five := by
  intro fits
  obtain ⟨-, parts⟩ := Node.allFit_iff.mp fits
  obtain ⟨sum, -⟩ := Node.allFit_iff.mp (Node.forall_parts_binary.mp parts).1
  rw [Node.exact, exact_x] at sum
  exact absurd sum (by decide)

theorem evaluate_twice_and_beyondAndBack :
    (Node.IsInteger five twice ∧ twice.AllFit five ∧
      ∃ a, evaluate five twice = .ok (.number (.int a)) ∧ a.toInt = twice.exact five) ∧
    Node.IsInteger five beyondAndBack ∧ ¬ beyondAndBack.AllFit five ∧
      Amount.Fits (beyondAndBack.exact five) ∧
      evaluate five beyondAndBack = .error .overflow := by
  have product : Node.IsInteger five twice :=
    .rounded (.inl rfl) (.binary (by decide) isInteger_x (.integer 2))
  have difference : Node.IsInteger five beyondAndBack :=
    .binary (by decide) (.binary (by decide) (.integer _) isInteger_x) isInteger_x
  refine ⟨⟨product, allFit_twice, (evaluate_of_isInteger product).1 allFit_twice⟩, difference,
    not_allFit_beyondAndBack, ?_, (evaluate_of_isInteger difference).2 not_allFit_beyondAndBack⟩
  rw [exact_beyondAndBack]
  decide

end Damage

end RuleText
