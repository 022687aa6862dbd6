import RuleText.Damage.Error
import RuleText.Damage.Roller

/-!
# Damage terms

A term of damage is a constant, or dice with a flat modifier. Adding a number
moves the constant or the modifier; multiplying and dividing change the constant
or the number of dice and leave faces and modifier alone.
-/

namespace RuleText.Damage

/-- `count` dice of `size` sides, and a number added to their sum. -/
structure Dice where
  count : Amount
  size : Amount
  modifier : Amount
deriving DecidableEq, Repr

namespace Dice

/-- Dice without a modifier. -/
def new (count size : Amount) : Dice := ⟨count, size, 0⟩

/-- The expected sum with each die rounded down: half of one more than its sides,
so that a d6 counts 3. -/
def average (d : Dice) : Amount :=
  let die := Amount.addSaturating d.size 1 / 2
  Amount.addSaturating (Amount.mulSaturating d.count die) d.modifier

/-- The dice as they are written in a formula. -/
def text (d : Dice) : Text :=
  let modifier := d.modifier.toInt
  Text.ofInt d.count.toInt ++ 'd' :: Text.ofInt d.size.toInt ++
    if modifier = 0 then []
    else if modifier < 0 then " - ".toList ++ Text.ofNat modifier.natAbs
    else " + ".toList ++ Text.ofInt modifier

/-- The number of sides, if a roller can roll such dice. -/
def sides? (d : Dice) : Option Nat :=
  if 0 < d.size.toInt ∧ d.size.toInt < wordLimit then some d.size.toInt.toNat else none

/-- Rolls the dice and adds the modifier. Dice that cannot be rolled count 0. -/
def roll {σ : Type} (roller : Roller σ) (d : Dice) : StateM σ Amount := do
  let results ← match d.sides? with
    | some sides => roller.rolls d.count.toInt.toNat sides
    | none => pure []
  let rolled := Amount.sum (results.map fun (n : Nat) => Int64.ofInt n)
  return Amount.addSaturating rolled d.modifier

end Dice

/-- The quotient rounded toward negative infinity. -/
def floorDiv (x divisor : Amount) : Except EvalError Amount :=
  if divisor = 0 then .error .divisionByZero
  else EvalError.orOverflow (Amount.floorDiv? x divisor)

/-- A constant or dice. -/
inductive Term where
  | constant (value : Amount)
  | dice (dice : Dice)
deriving DecidableEq, Repr

namespace Term

/-- Whether the term is dice. -/
def isDice : Term → Bool
  | constant _ => false
  | dice _ => true

/-- The expected value with each die rounded down. -/
def average : Term → Amount
  | constant n => n
  | dice d => d.average

/-- The term as it is written in a formula. -/
def text : Term → Text
  | constant n => Text.ofInt n.toInt
  | dice d => d.text

/-- Adds to the constant or the modifier. -/
def offset (n : Amount) : Term → Except EvalError Term
  | constant c => EvalError.orOverflow ((Amount.add? c n).map constant)
  | dice d =>
    EvalError.orOverflow ((Amount.add? d.modifier n).map fun m => dice { d with modifier := m })

/-- Multiplies the constant or the number of dice. -/
def scale (factor : Amount) : Term → Except EvalError Term
  | constant c => EvalError.orOverflow ((Amount.mul? c factor).map constant)
  | dice d =>
    EvalError.orOverflow ((Amount.mul? d.count factor).map fun k => dice { d with count := k })

/-- Divides the constant or the number of dice, rounding down. At least one die
stays. -/
def shrink (divisor : Amount) : Term → Except EvalError Term
  | constant c => (floorDiv c divisor).map constant
  | dice d =>
    (floorDiv d.count divisor).map fun k => dice { d with count := if k.toInt < 1 then 1 else k }

/-- The term combined with a number on its right. -/
def apply (op : Formula.Operator) (n : Amount) (t : Term) : Except EvalError Term :=
  match op with
  | .add => t.offset n
  | .sub => do t.offset (← EvalError.orOverflow (Amount.neg? n))
  | .mul => t.scale n
  | .div => t.shrink n

/-- Takes in a term of the same shape, constants a constant and dice some dice with
as many sides. The answer is whether the shapes agree. If the counts of dice can
be added and the modifiers cannot, only the counts have been added. -/
def absorb : Term → Term → Attempt Term Bool
  | constant a, constant b =>
    match Amount.add? a b with
    | some sum => ⟨.ok true, constant sum⟩
    | none => ⟨.error .overflow, constant a⟩
  | dice a, dice b =>
    if a.size = b.size then
      match Amount.add? a.count b.count with
      | none => ⟨.error .overflow, dice a⟩
      | some count =>
        match Amount.add? a.modifier b.modifier with
        | none => ⟨.error .overflow, dice { a with count }⟩
        | some modifier => ⟨.ok true, dice { a with count, modifier }⟩
    else ⟨.ok false, dice a⟩
  | t, _ => ⟨.ok false, t⟩

/-- The value of the term with its dice rolled. -/
def roll {σ : Type} (roller : Roller σ) : Term → StateM σ Amount
  | constant n => pure n
  | dice d => d.roll roller

end Term

end RuleText.Damage
