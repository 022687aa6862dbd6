import RuleText.Damage.Value
import RuleText.Formula.Parser
import RuleText.RollData.Basic

/-!
# Evaluating formulas

A tree is evaluated from the left, and the first error is the result. A text that
is no formula is kept as it is, so that damage written in words can still be
shown; an error in evaluating a formula is an error.
-/

namespace RuleText.Damage

/-- The functions of formulas. -/
inductive Function where
  | dice
  | min
  | max
  | floor
  | ceil
deriving DecidableEq, Repr

namespace Function

/-- The name of the function. -/
def name : Function → Text
  | dice => ['d']
  | min => "min".toList
  | max => "max".toList
  | floor => "floor".toList
  | ceil => "ceil".toList

/-- The function of a name. -/
def ofName? (t : Text) : Option Function :=
  [dice, min, max, floor, ceil].find? fun f => f.name = t

/-- Whether the function takes that many arguments. -/
def accepts : Function → Nat → Bool
  | dice, n => n == 2
  | min, n | max, n => 1 ≤ n
  | floor, n | ceil, n => n == 1

/-- The number of arguments in words. -/
def arity : Function → Text
  | dice => ['2']
  | min | max => "at least 1".toList
  | floor | ceil => ['1']

/-- The error of a call with the wrong number of arguments. -/
def arityError (f : Function) (found : Nat) : EvalError :=
  .badArity f.name f.arity found

/-- The value of the function. -/
def call (f : Function) (args : List Number) : Except EvalError Value :=
  match f, args with
  | dice, [count, size] =>
    let count := count.toAmount
    let size := size.toAmount
    if count.toInt < 1 ∨ size.toInt < 1 then .error (.invalidDice count size)
    else .ok (.damage (.ofTerm (.dice (.new count size))))
  | min, n :: more => .ok (.number (more.foldl Number.min n))
  | max, n :: more => .ok (.number (more.foldl Number.max n))
  | floor, [n] => .ok (.number n.floor)
  | ceil, [n] => .ok (.number n.ceil)
  | f, args => .error (f.arityError args.length)

end Function

/-- The value of the roll data at a path. An integer that does not fit an amount
becomes a double. -/
def reference (data : RollData) (path : Text) : Except EvalError Value :=
  match data.lookup path with
  | .error e => .error (.unknownPath e)
  | .ok (.number (.int n)) =>
    match Amount.fit? n with
    | some a => .ok (.number (.int a))
    | none => .ok (.number (.float (Float.ofInt n)))
  | .ok (.number (.float x)) => .ok (.number (.float x))
  | .ok (.string s) => .ok (.name s)
  | .ok other => .error (.invalidReference path other.compact)

mutual

/-- The value of a tree. -/
def evaluate (data : RollData) : Formula.Node → Except EvalError Value
  | .dice count size => .ok (.damage (.ofTerm (.dice (.new count size))))
  | .integer n => .ok (.number (.int n))
  | .name n => .ok (.name n)
  | .reference path => reference data path
  | .negate node => do
    match ← evaluate data node with
    | .number n => return .number (← n.neg)
    | other => .error (.invalidNegation other.text)
  | .binary left op right => do
    let a ← evaluate data left
    let b ← evaluate data right
    Value.binary op a b
  | .parens node => evaluate data node
  | .tuple items => return .tuple (← evaluateAll data items)
  | .tagged node tags => do
    let value ← evaluate data node
    return .damage (← evaluateTags data (← value.toDamage) tags)
  | .call function args =>
    match Function.ofName? function with
    | none => .error (.unknownFunction function)
    | some f =>
      if f.accepts args.length then do f.call (← evaluateNumbers data f args)
      else .error (f.arityError args.length)

/-- The values of several trees. -/
def evaluateAll (data : RollData) : List Formula.Node → Except EvalError (List Value)
  | [] => .ok []
  | node :: more => do
    let value ← evaluate data node
    return value :: (← evaluateAll data more)

/-- The arguments of a function, all of which are numbers. -/
def evaluateNumbers (data : RollData) (f : Function) :
    List Formula.Node → Except EvalError (List Number)
  | [] => .ok []
  | node :: more => do
    match ← evaluate data node with
    | .number n => return n :: (← evaluateNumbers data f more)
    | other => .error (.invalidArgument f.name other.text)

/-- Damage with the tags of several trees, each evaluated after the one before it
has been added. -/
def evaluateTags (data : RollData) (i : Instance) :
    List Formula.Node → Except EvalError Instance
  | [] => .ok i
  | node :: more => do
    let tag ← evaluate data node
    evaluateTags data (← tag.addTo i) more

end

/-- What the text of a damage directive stands for. -/
inductive Payload where
  | evaluated (value : Instance)
  /-- A text that is no formula, with the reason. -/
  | literal (text : Text) (error : Formula.ParseError)

/-- The damage of a tree. -/
def evaluateDamage (data : RollData) (node : Formula.Node) : Except EvalError Instance := do
  (← evaluate data node).toDamage

/-- The damage of a text. -/
def Payload.ofText (data : RollData) (t : Text) : Except EvalError Payload :=
  match Formula.parse t with
  | .ok node => (evaluateDamage data node).map evaluated
  | .error e => .ok (literal t e)

end RuleText.Damage
