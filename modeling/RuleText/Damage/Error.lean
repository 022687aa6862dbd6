import RuleText.Formula.Token
import RuleText.RollData.Path
import RuleText.Amount

/-!
# Errors of evaluation

An error keeps what went wrong as data; `EvalError.message` words it.
-/

namespace RuleText.Damage

/-- Why a formula has no value, or an operation on damage no result. -/
inductive EvalError where
  | unknownFunction (name : Text)
  | badArity (function expected : Text) (found : Nat)
  | invalidArgument (function found : Text)
  | invalidOperands (op : Formula.Operator) (left right : Text)
  | invalidNegation (found : Text)
  | invalidTag (found : Text)
  | invalidDice (count size : Amount)
  | invalidReference (path found : Text)
  | notDamage (found : Text)
  | divisionByZero
  | overflow
  | unknownPath (error : PathError)
deriving DecidableEq

namespace EvalError

/-- The error in words. -/
def message : EvalError → Text
  | unknownFunction name => "unknown function ".toList ++ name
  | badArity function expected found =>
    function ++ " expects ".toList ++ expected ++ " argument(s), found ".toList ++ Text.ofNat found
  | invalidArgument function found => function ++ " expects numbers, found ".toList ++ found
  | invalidOperands op left right =>
    "cannot apply '".toList ++ op.text ++ "' to ".toList ++ left ++ " and ".toList ++ right
  | invalidNegation found => "cannot negate ".toList ++ found
  | invalidTag found => found ++ " cannot be used as a tag".toList
  | invalidDice count size =>
    "dice need a positive count and size, found ".toList ++ Text.ofInt count.toInt ++ 'd' ::
      Text.ofInt size.toInt
  | invalidReference path found =>
    "roll data at ".toList ++ Text.quoted path ++ " is ".toList ++ found ++
      ", expected a number or a name".toList
  | notDamage found => "can't convert ".toList ++ found ++ " to damage".toList
  | divisionByZero => "cannot divide by zero".toList
  | overflow => "arithmetic overflow".toList
  | unknownPath error => error.message

/-- A result that is missing only because it does not fit an amount. -/
def orOverflow {α : Type} : Option α → Except EvalError α
  | some a => .ok a
  | none => .error overflow

end EvalError

/-- What an operation on a value answers, and the value afterwards. An operation
that fails may have changed part of the value. -/
structure Attempt (σ α : Type) where
  result : Except EvalError α
  state : σ

namespace Attempt

variable {σ α : Type}

/-- The changed value, if the operation succeeds. -/
def toExcept (a : Attempt σ α) : Except EvalError σ :=
  a.result.map fun _ => a.state

/-- A change that either happens as a whole or not at all. -/
def ofExcept (old : σ) : Except EvalError σ → Attempt σ Unit
  | .ok new => ⟨.ok (), new⟩
  | .error e => ⟨.error e, old⟩

theorem ofExcept_eq_ok_iff {old new : σ} {x : Except EvalError σ} :
    ofExcept old x = ⟨.ok (), new⟩ ↔ x = .ok new := by
  cases x with
  | error e => simp [ofExcept]
  | ok a => simp [ofExcept]

/-- The changes of the members of a list, from the left up to the first that
fails. -/
def each (change : σ → Attempt σ Unit) : List σ → Attempt (List σ) Unit
  | [] => ⟨.ok (), []⟩
  | x :: xs =>
    let head := change x
    match head.result with
    | .error e => ⟨.error e, head.state :: xs⟩
    | .ok () =>
      let tail := each change xs
      ⟨tail.result, head.state :: tail.state⟩

end Attempt

end RuleText.Damage
