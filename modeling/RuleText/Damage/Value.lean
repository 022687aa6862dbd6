import RuleText.Damage.Instance
import RuleText.Damage.Number

/-!
# Values of formulas

A formula has a number, a name, damage or a tuple as its value. At the end every
value but a name counts as damage: a number is a constant, and a tuple is its
members one after the other.
-/

namespace RuleText.Damage

/-- The value of a formula or of a part of it. -/
inductive Value where
  | number (value : Number)
  /-- A bare name, which serves only as a tag. -/
  | name (name : Text)
  | damage (value : Instance)
  | tuple (items : List Value)

namespace Value

mutual

/-- The value as messages show it. -/
def text : Value → Text
  | number n => "number ".toList ++ n.text
  | name n => "name ".toList ++ Text.quoted n
  | damage i => "damage ".toList ++ i.text
  | tuple items => "tuple (".toList ++ textOfAll items ++ [')']

/-- The texts of values with commas between them. -/
def textOfAll : List Value → Text
  | [] => []
  | [v] => text v
  | v :: w :: more => text v ++ ", ".toList ++ textOfAll (w :: more)

end

mutual

/-- The damage that a value stands for. -/
def toDamage : Value → Except EvalError Instance
  | damage i => .ok i
  | number n => .ok (.ofTerm (.constant n.toAmount))
  | tuple [] => .error (.notDamage "tuple ()".toList)
  | tuple (v :: more) => do appendAll (← toDamage v) more
  | name n => .error (.notDamage (text (name n)))

/-- Appends the damage of further values. -/
def appendAll (i : Instance) : List Value → Except EvalError Instance
  | [] => .ok i
  | v :: more => do appendAll (i.append (← toDamage v)) more

end

mutual

/-- Tags damage with a name or, one after the other, with all names of a tuple. -/
def addTo (i : Instance) : Value → Except EvalError Instance
  | name tag => .ok (i.addTag tag)
  | tuple items => addAllTo i items
  | other => .error (.invalidTag other.text)

/-- Tags damage with the names of several values. -/
def addAllTo (i : Instance) : List Value → Except EvalError Instance
  | [] => .ok i
  | v :: more => do addAllTo (← addTo i v) more

end

/-- A binary operation. Damage stands on the left of a number, except that sums and
products may also have the number first. Of two instances only the sum exists. -/
def binary (op : Formula.Operator) (left right : Value) : Except EvalError Value :=
  match left, right with
  | number a, number b =>
    match op with
    | .add => (a.add b).map number
    | .sub => (a.sub b).map number
    | .mul => (a.mul b).map number
    | .div => (a.div b).map number
  | damage i, number n => (i.apply op n.toAmount).toExcept.map damage
  | number n, damage i =>
    if op = .add ∨ op = .mul then (i.apply op n.toAmount).toExcept.map damage
    else .error (.invalidOperands op left.text right.text)
  | damage i, damage j =>
    if op = .add then (i.merge j).map damage
    else .error (.invalidOperands op left.text right.text)
  | _, _ => .error (.invalidOperands op left.text right.text)

end Value

end RuleText.Damage
