import RuleText.Amount
import RuleText.Formula.Token

/-!
# Formula trees

The tree of a formula keeps parentheses, lists and tags as they are written. Dice
whose count or size is itself a formula are a call of the function `d`.
-/

namespace RuleText.Formula

/-- A node of a formula tree. -/
inductive Node where
  /-- Dice with a written count and size. -/
  | dice (count size : Amount)
  | integer (value : Amount)
  /-- A bare name, which is a tag or names a function. -/
  | name (name : Text)
  /-- A path into the roll data, without its `@`. -/
  | reference (path : Text)
  | negate (value : Node)
  | binary (left : Node) (op : Operator) (right : Node)
  | parens (value : Node)
  | tuple (items : List Node)
  | tagged (value : Node) (tags : List Node)
  | call (function : Text) (args : List Node)

namespace Node

/-- Dice whose count and size are formulas. -/
def diceCall (count size : Node) : Node :=
  call ['d'] [count, size]

end Node

end RuleText.Formula
