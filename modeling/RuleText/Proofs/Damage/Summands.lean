import RuleText.Proofs.Damage.Conservation
import RuleText.Proofs.Formula.Spelling

/-!
# Damage written as a sum

The text of a group is a sum of dice without modifiers and of numbers: a modifier is one
more number, which is subtracted if it is negative, while a negative constant is added
with its minus. This sum is read back as it is written (`parse_magnitude`), and its tree
has the dice and the numbers of the terms.
-/

namespace RuleText.Damage

open Formula (Node Operator ReadsAs Derives)

/-! ### Summands -/

/-- What is added or subtracted in the text of a group. -/
inductive Summand where
  | dice (count size : Amount)
  | number (n : Amount)
deriving DecidableEq, Repr

/-- The opposite of an amount other than the least. -/
def opposite (n : Amount) : Amount :=
  Int64.ofInt (-n.toInt)

theorem toInt_opposite {n : Amount} (small : (n.toInt.natAbs : Int) ≤ Amount.greatest) :
    (opposite n).toInt = -n.toInt :=
  Amount.toInt_ofInt_of_fits (fits_of_natAbs_le (by omega))

namespace Summand

/-- The summand as it is written. -/
def text : Summand → Text
  | dice count size => Text.ofInt count.toInt ++ 'd' :: Text.ofInt size.toInt
  | number n => Text.ofInt n.toInt

/-- The tree of the text. The grammar has no negative integers, only negations. -/
def node : Summand → Node
  | dice count size => .dice count size
  | number n => if n.toInt < 0 then .negate (.integer (opposite n)) else .integer n

/-- The number of sides of dice. -/
def size? : Summand → Option Amount
  | dice _ size => some size
  | number _ => none

/-- The dice of a summand, each die counted with the weight of its size. -/
def diceSum (weight : Amount → Int) : Summand → Int
  | dice count size => count.toInt * weight size
  | number _ => 0

/-- The number of a summand. -/
def flat : Summand → Int
  | dice _ _ => 0
  | number n => n.toInt

/-- Summands that can be read back: at least one die with at least one side, or a number
whose opposite is an amount as well. -/
def Readable : Summand → Prop
  | dice count size => 1 ≤ count.toInt ∧ 1 ≤ size.toInt
  | number n => (n.toInt.natAbs : Int) ≤ Amount.greatest

variable {s : Summand}

theorem Readable.readsAs (h : s.Readable) : ReadsAs .signed s.text s.node := by
  cases s with
  | dice count size =>
    have some : 0 ≤ count.toInt := by have := h.1; omega
    have sided : 0 ≤ size.toInt := by have := h.2; omega
    rw [text, Formula.ofInt_of_nonneg some, Formula.ofInt_of_nonneg sided]
    exact .dice (Formula.digits_ofNat _) (Formula.digits_ofNat _)
      (Formula.writes_ofNat (by omega)) (Formula.writes_ofNat (by omega)) h.1 h.2
  | number n =>
    by_cases negative : n.toInt < 0
    · rw [text, node, if_pos negative, Formula.ofInt_of_neg negative]
      refine .negate (.integer (Formula.digits_ofNat _) (Formula.writes_ofNat ?_))
      rw [toInt_opposite h]
      omega
    · rw [text, node, if_neg negative, Formula.ofInt_of_nonneg (by omega)]
      exact .integer (Formula.digits_ofNat _) (Formula.writes_ofNat (by omega))

theorem isSum_node (data : RollData) (s : Summand) : Node.IsSum data s.node := by
  cases s with
  | dice count size => exact .dice count size
  | number n =>
    rw [node]
    split
    · exact .negate (.integer _)
    · exact .integer n

theorem diceSum_node (weight : Amount → Int) (s : Summand) :
    s.node.diceSum weight = s.diceSum weight := by
  cases s with
  | dice count size => rfl
  | number n =>
    rw [node]
    split <;> rfl

theorem flat_node (data : RollData) (h : s.Readable) : s.node.flat data = s.flat := by
  cases s with
  | dice count size => rfl
  | number n =>
    rw [node]
    split
    · show -(opposite n).toInt = n.toInt
      rw [toInt_opposite h, Int.neg_neg]
    · rfl

end Summand

/-! ### Sums -/

/-- A summand with the operator before it. -/
structure Addend where
  op : Operator
  summand : Summand
deriving DecidableEq, Repr

/-- Numbers are added or subtracted, dice are only added. -/
structure Addend.Readable (x : Addend) : Prop where
  sign : x.op = .add ∨ x.op = .sub ∧ x.summand.size? = none
  summand : x.summand.Readable

/-- Summands with their operators, with blanks around these. -/
def textOfAll (xs : List Addend) : Text :=
  xs.flatMap fun x => ' ' :: (x.op.text ++ ' ' :: x.summand.text)

/-- The tree of a sum that goes on with the summands. -/
def sumNode (left : Node) (xs : List Addend) : Node :=
  xs.foldl (fun left x => .binary left x.op x.summand.node) left

section Sum

variable {left : Node} {xs : List Addend} {t : Text}

theorem readsAs_sumNode (h : ReadsAs .addition t left) (readable : ∀ x ∈ xs, x.Readable) :
    ReadsAs .addition (t ++ textOfAll xs) (sumNode left xs) := by
  induction xs generalizing t left with
  | nil => simpa [textOfAll, sumNode] using h
  | cons x xs ih =>
    obtain ⟨first, more⟩ := List.forall_mem_cons.mp readable
    have added := h.sum first.summand.readsAs (first.sign.imp_right And.left)
    have all := ih added more
    simpa [textOfAll, sumNode] using all

theorem isSum_sumNode {data : RollData} (h : Node.IsSum data left)
    (readable : ∀ x ∈ xs, x.Readable) : Node.IsSum data (sumNode left xs) := by
  induction xs generalizing left with
  | nil => exact h
  | cons x xs ih =>
    obtain ⟨first, more⟩ := List.forall_mem_cons.mp readable
    have right := Summand.isSum_node data x.summand
    have both : Node.IsSum data (.binary left x.op x.summand.node) := by
      obtain add | ⟨sub, -⟩ := first.sign
      · rw [add]
        exact .add h right
      · rw [sub]
        exact .sub h right
    exact ih both more

theorem diceSum_sumNode (weight : Amount → Int) :
    (sumNode left xs).diceSum weight =
      left.diceSum weight + (xs.map fun x => x.summand.diceSum weight).sum := by
  induction xs generalizing left with
  | nil => simp [sumNode]
  | cons x xs ih =>
    have more : (sumNode left (x :: xs)).diceSum weight = _ := ih
    rw [more, List.map_cons, List.sum_cons, ← Summand.diceSum_node, ← Int.add_assoc]
    rfl

theorem flat_sumNode (data : RollData) (readable : ∀ x ∈ xs, x.Readable) :
    (sumNode left xs).flat data =
      left.flat data + (xs.map fun x => signed x.op x.summand.flat).sum := by
  induction xs generalizing left with
  | nil => simp [sumNode]
  | cons x xs ih =>
    obtain ⟨first, more⟩ := List.forall_mem_cons.mp readable
    have rest : (sumNode left (x :: xs)).flat data = _ := ih more
    rw [rest, List.map_cons, List.sum_cons, ← Summand.flat_node data first.summand, ← Int.add_assoc]
    rfl

end Sum

/-! ### Terms -/

namespace Term

/-- A constant as a number, or dice without their modifier. -/
def lead : Term → Summand
  | constant n => .number n
  | dice d => .dice d.count d.size

/-- The modifier of dice, unless it is zero. -/
def modifiers : Term → List Addend
  | constant _ => []
  | dice d =>
    if d.modifier.toInt = 0 then []
    else if d.modifier.toInt < 0 then [⟨.sub, .number (opposite d.modifier)⟩]
    else [⟨.add, .number d.modifier⟩]

/-- The summands of a term that is added. -/
def addends (t : Term) : List Addend :=
  ⟨.add, t.lead⟩ :: t.modifiers

variable {t : Term}

theorem modifiers_dice (d : Dice) :
    d.modifier.toInt = 0 ∧ (dice d).modifiers = [] ∨
    d.modifier.toInt < 0 ∧ (dice d).modifiers = [⟨.sub, .number (opposite d.modifier)⟩] ∨
    0 < d.modifier.toInt ∧ (dice d).modifiers = [⟨.add, .number d.modifier⟩] := by
  by_cases zero : d.modifier.toInt = 0
  · exact .inl ⟨zero, if_pos zero⟩
  · by_cases negative : d.modifier.toInt < 0
    · exact .inr (.inl ⟨negative, (if_neg zero).trans (if_pos negative)⟩)
    · exact .inr (.inr ⟨by omega, (if_neg zero).trans (if_neg negative)⟩)

theorem text_eq (small : (t.flat.natAbs : Int) ≤ Amount.greatest) :
    t.text = t.lead.text ++ textOfAll t.modifiers := by
  cases t with
  | constant n => simp [text, lead, modifiers, textOfAll, Summand.text]
  | dice d =>
    rw [text, Dice.text]
    obtain ⟨zero, eq⟩ | ⟨negative, eq⟩ | ⟨positive, eq⟩ := modifiers_dice d
    · simp [eq, zero, lead, textOfAll, Summand.text]
    · have written : Text.ofInt (opposite d.modifier).toInt =
          Text.ofNat d.modifier.toInt.natAbs := by
        rw [toInt_opposite small, Formula.ofInt_of_nonneg (by omega), Int.natAbs_neg]
      simp [eq, negative.ne, negative, written, lead, textOfAll, Summand.text, Operator.text]
    · simp [eq, positive.ne', positive.le, lead, textOfAll, Summand.text, Operator.text]

theorem readable_lead (positive : t.Positive) (small : (t.flat.natAbs : Int) ≤ Amount.greatest) :
    t.lead.Readable := by
  cases t with
  | constant n => exact small
  | dice d => exact positive

theorem readable_addends (positive : t.Positive)
    (small : (t.flat.natAbs : Int) ≤ Amount.greatest) : ∀ x ∈ t.addends, x.Readable := by
  refine List.forall_mem_cons.mpr ⟨⟨.inl rfl, readable_lead positive small⟩, ?_⟩
  cases t with
  | constant n => exact fun x hx => nomatch hx
  | dice d =>
    obtain ⟨-, eq⟩ | ⟨-, eq⟩ | ⟨-, eq⟩ := modifiers_dice d
    · simp [eq]
    · rw [eq, List.forall_mem_singleton]
      refine ⟨.inr ⟨rfl, rfl⟩, ?_⟩
      show ((opposite d.modifier).toInt.natAbs : Int) ≤ _
      rw [toInt_opposite small, Int.natAbs_neg]
      exact small
    · rw [eq, List.forall_mem_singleton]
      exact ⟨.inl rfl, small⟩

theorem sizes_addends (t : Term) :
    t.addends.filterMap (fun x => x.summand.size?) = t.shape.toList := by
  cases t with
  | constant n => rfl
  | dice d =>
    rw [addends]
    obtain ⟨-, eq⟩ | ⟨-, eq⟩ | ⟨-, eq⟩ := modifiers_dice d <;> rw [eq] <;> rfl

theorem diceSum_addends (weight : Amount → Int) (t : Term) :
    (t.addends.map fun x => x.summand.diceSum weight).sum = t.diceSum weight := by
  cases t with
  | constant n => rfl
  | dice d =>
    rw [addends]
    obtain ⟨-, eq⟩ | ⟨-, eq⟩ | ⟨-, eq⟩ := modifiers_dice d <;>
      simp [eq, lead, Summand.diceSum, diceSum]

theorem flat_addends (small : (t.flat.natAbs : Int) ≤ Amount.greatest) :
    (t.addends.map fun x => signed x.op x.summand.flat).sum = t.flat := by
  cases t with
  | constant n =>
    show signed .add n.toInt + 0 = n.toInt
    rw [Int.add_zero]
    rfl
  | dice d =>
    rw [addends]
    obtain ⟨zero, eq⟩ | ⟨-, eq⟩ | ⟨-, eq⟩ := modifiers_dice d
    · simp [eq, zero, lead, Summand.flat, flat, signed]
    · simp [eq, lead, Summand.flat, flat, signed, toInt_opposite small]
    · simp [eq, lead, Summand.flat, flat, signed]

theorem natAbs_flat_addends (small : (t.flat.natAbs : Int) ≤ Amount.greatest) :
    (t.addends.map fun x => x.summand.flat.natAbs).sum = t.flat.natAbs := by
  cases t with
  | constant n => rfl
  | dice d =>
    rw [addends]
    obtain ⟨zero, eq⟩ | ⟨-, eq⟩ | ⟨-, eq⟩ := modifiers_dice d
    · simp [eq, zero, lead, Summand.flat, flat]
    · simp [eq, lead, Summand.flat, flat, toInt_opposite small]
    · simp [eq, lead, Summand.flat, flat]

end Term

/-- The addends of all terms. -/
def addendsOfAll (terms : List Term) : List Addend :=
  terms.flatMap Term.addends

theorem magnitude_cons (t : Term) (ts : List Term) (tags : List Text)
    (small : ∀ u ∈ t :: ts, (u.flat.natAbs : Int) ≤ Amount.greatest) :
    Group.magnitude ⟨t :: ts, tags⟩ =
      t.lead.text ++ textOfAll (t.modifiers ++ addendsOfAll ts) := by
  induction ts generalizing t with
  | nil =>
    have first := Term.text_eq (small t List.mem_cons_self)
    simp [Group.magnitude, Text.joined, List.intercalate, first, addendsOfAll]
  | cons u ts ih =>
    have first := Term.text_eq (small t List.mem_cons_self)
    have more := ih u (List.forall_mem_cons.mp small).2
    have split : Group.magnitude ⟨t :: u :: ts, tags⟩ =
        t.text ++ (" + ".toList ++ Group.magnitude ⟨u :: ts, tags⟩) := by
      simp [Group.magnitude, Text.joined, List.intercalate_cons_cons]
    rw [split, first, more]
    simp [textOfAll, addendsOfAll, Term.addends, Operator.text]

theorem sum_addendsOfAll {M : Type} [AddMonoid M] {f : Addend → M} {m : Term → M}
    {terms : List Term} (h : ∀ t ∈ terms, (t.addends.map f).sum = m t) :
    ((addendsOfAll terms).map f).sum = (terms.map m).sum := by
  induction terms with
  | nil => rfl
  | cons t terms ih =>
    obtain ⟨first, more⟩ := List.forall_mem_cons.mp h
    have split : addendsOfAll (t :: terms) = t.addends ++ addendsOfAll terms := rfl
    rw [split, List.map_append, List.sum_append, first, ih more, List.map_cons, List.sum_cons]

/-! ### The tree of the text -/

/-- The tree of terms as they are written. -/
def treeOf (t : Term) (ts : List Term) : Node :=
  sumNode t.lead.node (t.modifiers ++ addendsOfAll ts)

/-- Terms that are written so that they can be read back. -/
structure Printable (terms : List Term) : Prop where
  positive : ∀ t ∈ terms, t.Positive
  small : ∀ t ∈ terms, (t.flat.natAbs : Int) ≤ Amount.greatest

section Tree

variable {t : Term} {ts : List Term}

theorem Printable.readable (h : Printable (t :: ts)) :
    t.lead.Readable ∧ ∀ x ∈ t.modifiers ++ addendsOfAll ts, x.Readable := by
  have all : ∀ x ∈ addendsOfAll (t :: ts), x.Readable := by
    intro x hx
    obtain ⟨u, hu, hx⟩ := List.mem_flatMap.mp hx
    exact Term.readable_addends (h.positive u hu) (h.small u hu) x hx
  exact ⟨(all _ List.mem_cons_self).summand, fun x hx => all x (List.mem_cons_of_mem _ hx)⟩

/-- The text of a group is read back as the sum that it is. -/
theorem parse_magnitude (h : Printable (t :: ts)) (tags : List Text) :
    Formula.parse (Group.magnitude ⟨t :: ts, tags⟩) = .ok (treeOf t ts) := by
  obtain ⟨first, more⟩ := h.readable
  rw [magnitude_cons t ts tags h.small]
  have lead : ReadsAs .addition t.lead.text t.lead.node :=
    first.readsAs.derives fun tokens derives => .summand (.factor derives)
  exact Formula.parse_of_readsAs (readsAs_sumNode lead more)

theorem isSum_treeOf (data : RollData) (h : Printable (t :: ts)) :
    Node.IsSum data (treeOf t ts) :=
  isSum_sumNode (Summand.isSum_node data _) h.readable.2

theorem diceSum_treeOf (weight : Amount → Int) (t : Term) (ts : List Term) :
    (treeOf t ts).diceSum weight = ((t :: ts).map (Term.diceSum weight)).sum := by
  rw [treeOf, diceSum_sumNode, Summand.diceSum_node,
    ← sum_addendsOfAll fun u _ => Term.diceSum_addends weight u]
  rfl

theorem flat_treeOf (data : RollData) (h : Printable (t :: ts)) :
    (treeOf t ts).flat data = ((t :: ts).map Term.flat).sum := by
  rw [treeOf, flat_sumNode data h.readable.2, Summand.flat_node data h.readable.1,
    ← sum_addendsOfAll fun u hu => Term.flat_addends (h.small u hu)]
  rfl

end Tree

end RuleText.Damage
