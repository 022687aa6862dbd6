import RuleText.Proofs.Damage.Evaluation
import RuleText.Proofs.Damage.WellFormed
import RuleText.Proofs.Formula.Completeness

/-!
# All damage is well formed

Dice enter an instance from three places. The parser writes no dice without a die or
without a side, the function `d` refuses to make them, and roll data give no dice at
all. So the damage of every text is well formed, and as all operations keep this,
every instance that comes up in a run is.
-/

namespace RuleText

open Damage

/-! ### Dice in formulas -/

namespace Formula

/-- All dice that are written in the tree have at least one die and one side. -/
inductive Node.Written : Node → Prop
  | dice {count size : Amount} : 1 ≤ count.toInt → 1 ≤ size.toInt → Written (.dice count size)
  | integer (n : Amount) : Written (.integer n)
  | name (n : Text) : Written (.name n)
  | reference (path : Text) : Written (.reference path)
  | negate {node : Node} : Written node → Written (.negate node)
  | binary {left right : Node} (op : Operator) : Written left → Written right →
      Written (.binary left op right)
  | parens {node : Node} : Written node → Written (.parens node)
  | tuple {items : List Node} : (∀ node ∈ items, Written node) → Written (.tuple items)
  | tagged {node : Node} {tags : List Node} : Written node → (∀ tag ∈ tags, Written tag) →
      Written (.tagged node tags)
  | call {args : List Node} (function : Text) : (∀ arg ∈ args, Written arg) →
      Written (.call function args)

/-- The same for what a phrase stands for. -/
def Symbol.Written : (s : Symbol) → s.Tree → Prop
  | items, nodes | tags, nodes => ∀ node ∈ nodes, node.Written
  | formula, node | addition, node | product, node | signed, node | value, node | atom, node
  | tag, node => node.Written

theorem one_le_of_writes {digits : Text} {n : Amount} (writes : Writes digits n) (nonzero : n ≠ 0) :
    1 ≤ n.toInt := by
  have value : n.toInt ≠ 0 := fun zero => nonzero (Int64.toInt_inj.mp zero)
  unfold Writes at writes
  omega

theorem one_le_of_writesDice {text : Text} {count size : Amount} (h : WritesDice text count size) :
    1 ≤ count.toInt ∧ 1 ≤ size.toInt := by
  obtain ⟨-, counts, writes, nonzero, nonzero'⟩ := h
  refine ⟨?_, one_le_of_writes writes nonzero'⟩
  unfold WritesCount at counts
  split at counts
  · rw [counts]
    decide
  · exact one_le_of_writes counts nonzero

theorem written_of_derives {s : Symbol} {ts : List Token} {tree : s.Tree} (h : Derives s ts tree) :
    s.Written tree := by
  induction h with
  | single _ ih | summand _ ih | factor _ ih | unsigned _ ih | bare _ ih => exact ih
  | tuple _ _ ih | trailing _ _ ih => exact .tuple ih
  | item _ ih | oneTag _ ih => exact List.forall_mem_singleton.mpr ih
  | moreItems _ _ _ ih ih' | moreTags _ _ _ ih ih' => exact List.forall_mem_cons.mpr ⟨ih, ih'⟩
  | binarySum _ _ _ _ ih ih' | binaryProduct _ _ _ _ ih ih' => exact .binary _ ih ih'
  | negate _ _ ih => exact .negate ih
  | tagged _ _ _ _ ih ih' => exact .tagged ih ih'
  | sized _ _ _ _ ih =>
    exact .call _ (List.forall_mem_cons.mpr ⟨ih, List.forall_mem_singleton.mpr (.integer _)⟩)
  | sizedBy _ _ _ _ ih ih' =>
    exact .call _ (List.forall_mem_cons.mpr ⟨ih, List.forall_mem_singleton.mpr ih'⟩)
  | integer _ _ => exact .integer _
  | dice _ writes =>
    obtain ⟨some, sides⟩ := one_le_of_writesDice writes
    exact .dice some sides
  | reference _ | tagReference _ => exact .reference _
  | name _ | tagName _ _ => exact .name _
  | callEmpty _ _ _ => exact .call _ (fun node hn => nomatch hn)
  | call _ _ _ _ ih => exact .call _ ih
  | parens _ _ _ ih => exact .parens ih
  | tagGroup _ _ _ ih => exact .tuple ih

/-- The parser writes no dice without a die or without a side. -/
theorem written_of_parse {t : Text} {node : Node} (h : parse t = .ok node) : node.Written :=
  written_of_derives (parse_eq_ok_iff.mp h)

end Formula

/-! ### Values -/

namespace Damage

/-- All damage in the value is well formed. -/
inductive Value.WellFormed : Value → Prop
  | number (n : Number) : WellFormed (.number n)
  | name (n : Text) : WellFormed (.name n)
  | damage {i : Instance} : i.WellFormed → WellFormed (.damage i)
  | tuple {items : List Value} : (∀ v ∈ items, WellFormed v) → WellFormed (.tuple items)

namespace Value.WellFormed

variable {v : Value} {i i' : Instance}

theorem appendAll {items : List Value}
    (h : ∀ v ∈ items, ∀ i, v.toDamage = .ok i → i.WellFormed) (hi : i.WellFormed)
    (appended : Value.appendAll i items = .ok i') : i'.WellFormed := by
  induction items generalizing i with
  | nil =>
    rw [Value.appendAll] at appended
    cases appended
    exact hi
  | cons v more ih =>
    rw [Value.appendAll] at appended
    obtain ⟨j, damage, appended⟩ := bind_eq_ok.mp appended
    obtain ⟨hv, more⟩ := List.forall_mem_cons.mp h
    exact ih more (hi.append (hv j damage)) appended

theorem toDamage (h : v.WellFormed) (damage : v.toDamage = .ok i) : i.WellFormed := by
  induction h generalizing i with
  | number n =>
    rw [Value.toDamage] at damage
    cases damage
    exact .ofTerm trivial
  | name n => cases damage
  | damage hi =>
    rw [Value.toDamage] at damage
    cases damage
    exact hi
  | @tuple items _ ih =>
    cases items with
    | nil => cases damage
    | cons v more =>
      rw [Value.toDamage] at damage
      obtain ⟨j, first, appended⟩ := bind_eq_ok.mp damage
      obtain ⟨hv, more⟩ := List.forall_mem_cons.mp ih
      exact appendAll (fun v hv i damage => more v hv damage) (hv first) appended

theorem combines {op : Formula.Operator} {a b : Value} (ha : a.WellFormed) (hb : b.WellFormed)
    (h : Combines op a b v) : v.WellFormed := by
  cases h with
  | numbers _ => exact .number _
  | @damageNumber i i' n applied =>
    cases ha with
    | damage hi =>
      obtain ⟨-, -, rfl⟩ := map_eq_ok.mp applied
      exact .damage (hi.apply op n.toAmount)
  | @numberDamage i i' n _ applied =>
    cases hb with
    | damage hi =>
      obtain ⟨-, -, rfl⟩ := map_eq_ok.mp applied
      exact .damage (hi.apply op n.toAmount)
  | damages _ merged =>
    cases ha with
    | damage hi =>
      cases hb with
      | damage hj => exact .damage (hi.merge hj merged)

end Value.WellFormed

/-! ### Evaluation -/

open Formula (Node)

variable {data : RollData} {node : Node} {v : Value}

theorem wellFormed_new {count size : Amount} (some : 1 ≤ count.toInt) (sides : 1 ≤ size.toInt) :
    (Value.damage (.ofTerm (.dice (.new count size)))).WellFormed :=
  .damage (.ofTerm ⟨some, sides⟩)

/-- Evaluation keeps dice well formed: what the tree does not write, functions make
with at least one die and one side. -/
theorem wellFormed_evaluate (written : node.Written) (h : evaluate data node = .ok v) :
    v.WellFormed := by
  induction written generalizing v with
  | dice some sides =>
    rw [evaluate] at h
    cases h
    exact wellFormed_new some sides
  | integer n =>
    rw [evaluate] at h
    cases h
    exact .number _
  | name n =>
    rw [evaluate] at h
    cases h
    exact .name n
  | reference path =>
    rw [evaluate] at h
    rcases of_reference h with ⟨n, rfl⟩ | ⟨n, rfl⟩
    · exact .number n
    · exact .name n
  | negate _ _ =>
    obtain ⟨n, m, -, -, rfl⟩ := of_evaluate_negate h
    exact .number m
  | binary op _ _ ih ih' =>
    obtain ⟨a, b, left, right, combined⟩ := of_evaluate_binary h
    exact .combines (ih left) (ih' right) combined
  | parens _ ih =>
    rw [evaluate] at h
    exact ih h
  | tuple _ ih =>
    obtain ⟨vs, values, rfl⟩ := of_evaluate_tuple h
    refine .tuple fun v hv => ?_
    obtain ⟨node, hn, value⟩ := exists_of_forall₂ (forall₂_of_evaluateAll values) hv
    exact ih node hn value
  | tagged _ _ ih _ =>
    obtain ⟨u, i, i', value, damage, terms, rfl⟩ := of_evaluate_tagged h
    have hi : i.WellFormed := (ih value).toDamage damage
    exact .damage (hi.of_terms terms)
  | call function _ _ =>
    rcases of_evaluate_call h with ⟨n, rfl⟩ | ⟨count, size, some, sides, rfl⟩
    · exact .number n
    · exact wellFormed_new some sides

/-- The damage of a text is well formed, and from well-formed instances commands lead
to well-formed instances only, also where one of them fails midway. -/
theorem wellFormed_ofText_and_runAll :
    (∀ (data : RollData) (t : Text) (i : Instance),
      Payload.ofText data t = .ok (.evaluated i) → i.WellFormed) ∧
    ∀ (ι : Type) [DecidableEq ι] (registers : ι → Instance) (commands : List (Command ι)),
      (∀ r, (registers r).WellFormed) → ∀ r, (runAll registers commands r).WellFormed := by
  constructor
  · intro data t i h
    unfold Payload.ofText at h
    cases parsed : Formula.parse t with
    | error e =>
      rw [parsed] at h
      cases h
    | ok node =>
      rw [parsed] at h
      obtain ⟨j, evaluated, same⟩ := map_eq_ok.mp h
      cases same
      obtain ⟨v, value, damage⟩ := bind_eq_ok.mp evaluated
      have hv : v.WellFormed := wellFormed_evaluate (Formula.written_of_parse parsed) value
      exact hv.toDamage damage
  · intro ι _ registers commands h
    exact wellFormed_runAll h commands

theorem parse_twoDice :
    Formula.parse "2d6-8".toList = .ok (.binary (.dice 2 6) .sub (.integer 8)) := by
  let dice : Formula.Token := ⟨.dice, 0, "2d6".toList⟩
  let sign : Formula.Token := ⟨.minus, 3, ['-']⟩
  let number : Formula.Token := ⟨.integer, 4, ['8']⟩
  have tokens : Formula.Token.ofText "2d6-8".toList = [dice] ++ sign :: [number] := by
    decide +kernel
  have sides : Formula.WritesDice (['2'] ++ 'd' :: ['6']) 2 6 :=
    .intro (by decide) rfl rfl (by decide) (by decide)
  have left : Formula.Derives .addition [dice] (.dice 2 6) :=
    .addition_of_value (.bare (.dice rfl sides))
  have right : Formula.Derives .product [number] (.integer 8) :=
    .product_of_value (.bare (.integer rfl rfl))
  rw [Formula.parse_eq_ok_iff, tokens]
  exact .single (.binarySum left rfl (.inr rfl) right)

/-- Twice the constant does not fit, but by then the dice have been doubled. -/
def dicePlusQuarter : Instance :=
  ⟨[⟨[.dice ⟨4, 6, 0⟩, .constant 4611686018427387904], ["fire".toList]⟩], false⟩

def doubled : List (Command Unit) :=
  [.apply () .mul 2, .append () ()]

theorem wellFormed_dicePlusQuarter : dicePlusQuarter.WellFormed := by
  have dice : Term.Positive (.dice ⟨4, 6, 0⟩) := ⟨by decide, by decide⟩
  refine ⟨by decide, List.forall_mem_singleton.mpr ⟨by decide, ?_, by decide⟩⟩
  exact List.forall_mem_cons.mpr ⟨dice, List.forall_mem_singleton.mpr trivial⟩

theorem wellFormed_twoDice :
    Payload.ofText .empty "2d6-8".toList = .ok (.evaluated ⟨[⟨[.dice ⟨2, 6, -8⟩], []⟩], false⟩) ∧
      (⟨[⟨[.dice ⟨2, 6, -8⟩], []⟩], false⟩ : Instance).WellFormed ∧
      dicePlusQuarter.WellFormed ∧
      (runAll (fun _ => dicePlusQuarter) doubled ()).terms =
        [.dice ⟨8, 6, 0⟩, .constant 4611686018427387904,
          .dice ⟨8, 6, 0⟩, .constant 4611686018427387904] ∧
      (runAll (fun _ => dicePlusQuarter) doubled ()).WellFormed := by
  have evaluated : Payload.ofText .empty "2d6-8".toList =
      .ok (.evaluated ⟨[⟨[.dice ⟨2, 6, -8⟩], []⟩], false⟩) := by
    rw [Payload.ofText, parse_twoDice]
    rfl
  obtain ⟨texts, runs⟩ := wellFormed_ofText_and_runAll
  have left := runs Unit (fun _ => dicePlusQuarter) doubled fun _ => wellFormed_dicePlusQuarter
  exact ⟨evaluated, texts _ _ _ evaluated, wellFormed_dicePlusQuarter, by decide, left ()⟩

end Damage

end RuleText
