import RuleText.Proofs.Damage.Average
import RuleText.Proofs.Damage.Invariant

/-!
# Damage is neither lost nor duplicated

In a formula that only adds, subtracts, lists and tags, each die of the formula is a
die of the damage, and the constants and modifiers of the damage add up to the signed
sum of the numbers of the formula. The average follows, as long as nothing is
saturated.
-/

namespace RuleText

open Damage

/-! ### What a formula holds -/

namespace Formula.Node

/-- Trees of dice, integers and integral roll data with signs, sums, differences,
parentheses, lists and tags. What the tags are does not matter. -/
inductive IsSum (data : RollData) : Node → Prop
  | dice (count size : Amount) : IsSum data (.dice count size)
  | integer (n : Amount) : IsSum data (.integer n)
  | reference {path : Text} {n : Int} : data.lookup path = .ok (.number (.int n)) →
      Amount.Fits n → IsSum data (.reference path)
  | negate {node : Node} : IsSum data node → IsSum data (.negate node)
  | add {left right : Node} : IsSum data left → IsSum data right →
      IsSum data (.binary left .add right)
  | sub {left right : Node} : IsSum data left → IsSum data right →
      IsSum data (.binary left .sub right)
  | parens {node : Node} : IsSum data node → IsSum data (.parens node)
  | tuple {items : List Node} : (∀ node ∈ items, IsSum data node) → IsSum data (.tuple items)
  | tagged {node : Node} (tags : List Node) : IsSum data node → IsSum data (.tagged node tags)

mutual

/-- The dice that are written in a tree outside of tags, each die counted with the
weight of its size. -/
def diceSum (weight : Amount → Int) : Node → Int
  | dice count size => count.toInt * weight size
  | integer _ | name _ | reference _ | call _ _ => 0
  | negate node | parens node | tagged node _ => node.diceSum weight
  | binary left _ right => left.diceSum weight + right.diceSum weight
  | tuple items => diceSumOfAll weight items

/-- The dice in several trees. -/
def diceSumOfAll (weight : Amount → Int) : List Node → Int
  | [] => 0
  | node :: more => node.diceSum weight + diceSumOfAll weight more

end

mutual

/-- The numbers of a tree outside of tags, each with the sign that minuses give it. -/
def flat (data : RollData) : Node → Int
  | integer n => n.toInt
  | reference path =>
    match data.lookup path with
    | .ok (.number (.int n)) => n
    | _ => 0
  | dice _ _ | name _ | call _ _ => 0
  | negate node => -node.flat data
  | parens node | tagged node _ => node.flat data
  | binary left op right => left.flat data + signed op (right.flat data)
  | tuple items => flatOfAll data items

/-- The numbers of several trees. -/
def flatOfAll (data : RollData) : List Node → Int
  | [] => 0
  | node :: more => node.flat data + flatOfAll data more

end

end Formula.Node

namespace Damage

open Formula (Node)

/-! ### Conservation -/

variable {data : RollData} {node : Node} {v : Value} {i : Instance}

/-- The value holds the dice and the numbers of the tree. -/
structure Holds (data : RollData) (node : Node) (v : Value) : Prop where
  integral : v.Integral
  dice : ∀ weight, total (Term.diceSum weight) v.groups = node.diceSum weight
  flat : total Term.flat v.groups = node.flat data

theorem holds_dice (count size : Amount) :
    Holds data (.dice count size) (.damage (.ofTerm (.dice (.new count size)))) where
  integral := integral_damage _
  dice _ := total_ofTerm _
  flat := total_ofTerm _

theorem holds_int {a : Amount} (dice : ∀ weight, node.diceSum weight = 0)
    (flat : node.flat data = a.toInt) : Holds data node (.number (.int a)) where
  integral := integral_int a
  dice weight := by
    rw [(additive_diceSum weight).total_int, Int.zero_mul, dice]
  flat := by
    rw [additive_flat.total_int, Int.one_mul, flat]

/-- A number holds no dice, so the opposite of it does not lose any. -/
theorem Holds.negate {a b : Amount} (h : Holds data node (.number (.int a)))
    (opposite : b.toInt = -a.toInt) : Holds data (.negate node) (.number (.int b)) := by
  apply holds_int
  · intro weight
    show node.diceSum weight = 0
    rw [← h.dice weight, (additive_diceSum weight).total_int, Int.zero_mul]
  · show -node.flat data = b.toInt
    rw [← h.flat, additive_flat.total_int, Int.one_mul, opposite]

theorem holds_of_reference {path : Text} {n : Int}
    (integral : data.lookup path = .ok (.number (.int n))) (fits : Amount.Fits n)
    (h : reference data path = .ok v) : Holds data (.reference path) v := by
  rw [reference_of_integral integral fits] at h
  cases h
  apply holds_int
  · exact fun weight => rfl
  · show (match data.lookup path with
      | .ok (.number (.int n)) => n
      | _ => 0) = _
    rw [integral, Amount.toInt_ofInt_of_fits fits]

/-- What is subtracted is a number and so holds no dice. -/
theorem total_diceSum_of_sub {a b : Value} (weight : Amount → Int) (h : Combines .sub a b v) :
    total (Term.diceSum weight) b.groups = 0 := by
  cases h with
  | numbers _ => exact total_ofTerm _
  | damageNumber _ => exact total_ofTerm _
  | numberDamage commutes _ => simp at commutes
  | damages add _ => cases add

theorem Holds.binary {left right : Node} {op : Formula.Operator} {a b : Value}
    (sum : op = .add ∨ op = .sub) (ha : Holds data left a) (hb : Holds data right b)
    (h : Combines op a b v) : Holds data (.binary left op right) v where
  integral := (additive_flat.combines sum ha.integral hb.integral h).1
  dice weight := by
    have combined := (additive_diceSum weight).combines sum ha.integral hb.integral h
    show _ = left.diceSum weight + right.diceSum weight
    rw [combined.2, ha.dice]
    obtain rfl | rfl := sum
    · rw [← hb.dice]
      rfl
    · rw [← hb.dice, total_diceSum_of_sub weight h]
      rfl
  flat := by
    have combined := additive_flat.combines sum ha.integral hb.integral h
    show _ = left.flat data + signed op (right.flat data)
    rw [combined.2, ha.flat, hb.flat]

theorem holds_tuple {items : List Node} {vs : List Value} (h : List.Forall₂ (Holds data) items vs) :
    Holds data (.tuple items) (.tuple vs) where
  integral := integral_tuple vs
  dice weight := by
    show total _ (Value.groupsOfAll vs) = Node.diceSumOfAll weight items
    induction h with
    | nil => rfl
    | cons holds _ ih =>
      rw [Value.groupsOfAll, total_append, ih, holds.dice, Node.diceSumOfAll]
  flat := by
    show total _ (Value.groupsOfAll vs) = Node.flatOfAll data items
    induction h with
    | nil => rfl
    | cons holds _ ih =>
      rw [Value.groupsOfAll, total_append, ih, holds.flat, Node.flatOfAll]

theorem Holds.tagged {u : Value} {i' : Instance} (h : Holds data node u)
    (damage : u.toDamage = .ok i)
    (same : i'.groups.map Group.terms = i.groups.map Group.terms) (tags : List Node) :
    Holds data (.tagged node tags) (.damage i') where
  integral := integral_damage i'
  dice weight := by
    show total _ i'.groups = node.diceSum weight
    rw [total_eq_of_terms same, groups_toDamage u damage, h.dice]
  flat := by
    show total _ i'.groups = node.flat data
    rw [total_eq_of_terms same, groups_toDamage u damage, h.flat]

/-- Every value of a sum holds what the tree holds. -/
theorem holds_of_evaluate (sum : Node.IsSum data node) (h : evaluate data node = .ok v) :
    Holds data node v := by
  induction sum generalizing v with
  | dice count size =>
    rw [evaluate] at h
    cases h
    exact holds_dice count size
  | integer n =>
    rw [evaluate] at h
    cases h
    exact holds_int (fun weight => rfl) rfl
  | reference integral fits =>
    rw [evaluate] at h
    exact holds_of_reference integral fits h
  | negate _ ih =>
    obtain ⟨n, m, value, opposite, rfl⟩ := of_evaluate_negate h
    have holds := ih value
    obtain ⟨a, rfl⟩ := holds.integral n rfl
    obtain ⟨b, negated, rfl⟩ := Option.map_eq_some_iff.mp (orOverflow_eq_ok.mp opposite)
    exact holds.negate (Amount.fit?_eq_some_iff.mp negated)
  | add _ _ ih ih' =>
    obtain ⟨a, b, left, right, combined⟩ := of_evaluate_binary h
    exact (ih left).binary (.inl rfl) (ih' right) combined
  | sub _ _ ih ih' =>
    obtain ⟨a, b, left, right, combined⟩ := of_evaluate_binary h
    exact (ih left).binary (.inr rfl) (ih' right) combined
  | parens _ ih =>
    rw [evaluate] at h
    have holds := ih h
    exact ⟨holds.integral, holds.dice, holds.flat⟩
  | @tuple items _ ih =>
    obtain ⟨vs, values, rfl⟩ := of_evaluate_tuple h
    have each : ∀ node ∈ items, ∀ v, evaluate data node = .ok v → Holds data node v :=
      fun node hn v => ih node hn
    have both := (List.forall₂_and_left items vs).mpr ⟨each, forall₂_of_evaluateAll values⟩
    exact holds_tuple (both.imp fun node v h => h.1 v h.2)
  | tagged tags _ ih =>
    obtain ⟨u, i, i', value, damage, same, rfl⟩ := of_evaluate_tagged h
    exact (ih value).tagged damage same tags

/-- Counts the dice of one size and no others. -/
def only (size s : Amount) : Int :=
  if s = size then 1 else 0

/-- The damage of a sum has as many dice of each size as the tree, and its constants and
modifiers add up to the numbers of the tree. Hence its average is that of the tree, if
no size is the greatest amount and the bulk fits; the trees that `parse` gives are all
`Written`. -/
theorem conserved_of_evaluateDamage {data : RollData} {node : Node} {i : Instance}
    (sum : Node.IsSum data node) (h : evaluateDamage data node = .ok i) :
    (∀ size, i.diceSum (only size) = node.diceSum (only size)) ∧
      i.flat = node.flat data ∧
      (node.Written → (∀ d, .dice d ∈ i.terms → d.size.toInt < Amount.greatest) →
        (i.bulk : Int) ≤ Amount.greatest →
          i.average.toInt = node.diceSum dieAverage + node.flat data) := by
  obtain ⟨v, value, damage⟩ := bind_eq_ok.mp h
  have holds : Holds data node v := holds_of_evaluate sum value
  have groups : i.groups = v.groups := groups_toDamage v damage
  have dice (weight : Amount → Int) : i.diceSum weight = node.diceSum weight := by
    rw [Instance.diceSum, groups, holds.dice]
  have flat : i.flat = node.flat data := by
    rw [Instance.flat, groups, holds.flat]
  refine ⟨fun size => dice (only size), flat, ?_⟩
  intro written below small
  have wellFormed : i.WellFormed := (wellFormed_evaluate written value).toDamage damage
  have average : Accurate i.average (i.diceSum dieAverage + i.flat) i.bulk := by
    apply accurate_instance
    intro d hd
    obtain ⟨g, hg, ht⟩ := List.mem_flatMap.mp hd
    have positive : Term.Positive (.dice d) := (wellFormed.terms g hg).positive _ ht
    exact ⟨positive.2, below d hd⟩
  rw [average.exact small, dice, flat]

/-- Some d6 of fire damage. -/
def fire (count : Amount) : Node :=
  .tagged (.dice count 6) [.name "fire".toList]

/-- Fire damage with a bonus, merged with more of its kind, and a difference. -/
def fireAndBonus : Node :=
  .tuple [.binary (.binary (fire 2) .add (.integer 3)) .add (fire 1),
    .binary (.negate (.reference "x".toList)) .sub (.integer (-8))]

/-- The damage of `fireAndBonus` if `x` is 5. -/
def mergedFire : Instance :=
  ⟨[⟨[.dice ⟨3, 6, 3⟩], ["fire".toList]⟩, ⟨[.constant 3], []⟩], false⟩

def five : RollData :=
  .set .empty "x".toList (.number (.int 5))

theorem lookup_five : five.lookup "x".toList = .ok (.number (.int 5)) := by
  have steps : Path.steps? "x".toList = some [.key "x".toList] := by decide +kernel
  rw [RollData.lookup, steps]
  rfl

theorem isSum_fireAndBonus : Node.IsSum five fireAndBonus := by
  have some (count : Amount) : Node.IsSum five (fire count) := .tagged _ (.dice count 6)
  have x : Node.IsSum five (.reference "x".toList) := .reference lookup_five (by decide)
  refine .tuple (List.forall_mem_cons.mpr ⟨?_, List.forall_mem_singleton.mpr ?_⟩)
  · exact .add (.add (some 2) (.integer 3)) (some 1)
  · exact .sub (.negate x) (.integer _)

theorem written_fireAndBonus : fireAndBonus.Written := by
  have some (count : Amount) (h : 1 ≤ count.toInt) : (fire count).Written :=
    .tagged (.dice h (by decide)) (List.forall_mem_singleton.mpr (.name _))
  refine .tuple (List.forall_mem_cons.mpr ⟨?_, List.forall_mem_singleton.mpr ?_⟩)
  · exact .binary _ (.binary _ (some 2 (by decide)) (.integer 3)) (some 1 (by decide))
  · exact .binary _ (.negate (.reference _)) (.integer _)

theorem evaluateDamage_fireAndBonus : evaluateDamage five fireAndBonus = .ok mergedFire := by
  have value : reference five "x".toList = .ok (.number (.int 5)) := by
    rw [reference, lookup_five]
    rfl
  simp only [evaluateDamage, fireAndBonus, fire, evaluate, evaluateAll, evaluateTags, value]
  rfl

theorem conserved_fireAndBonus :
    Node.IsSum five fireAndBonus ∧ evaluateDamage five fireAndBonus = .ok mergedFire ∧
      fireAndBonus.Written ∧
      (∀ d, .dice d ∈ mergedFire.terms → d.size.toInt < Amount.greatest) ∧
      (mergedFire.bulk : Int) ≤ Amount.greatest ∧
      mergedFire.diceSum (only 6) = fireAndBonus.diceSum (only 6) ∧
      mergedFire.flat = fireAndBonus.flat five ∧
      mergedFire.average.toInt = fireAndBonus.diceSum dieAverage + fireAndBonus.flat five := by
  obtain ⟨dice, flat, average⟩ :=
    conserved_of_evaluateDamage isSum_fireAndBonus evaluateDamage_fireAndBonus
  have sizes : ∀ d, .dice d ∈ mergedFire.terms → d.size.toInt < Amount.greatest := by
    intro d hd
    have same : d = ⟨3, 6, 3⟩ := by simpa [mergedFire, Instance.terms] using hd
    rw [same]
    decide
  have small : (mergedFire.bulk : Int) ≤ Amount.greatest := by decide
  exact ⟨isSum_fireAndBonus, evaluateDamage_fireAndBonus, written_fireAndBonus, sizes, small,
    dice 6, flat, average written_fireAndBonus sizes small⟩

end Damage

end RuleText
