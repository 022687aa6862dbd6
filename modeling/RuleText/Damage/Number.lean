import RuleText.Damage.Error
import RuleText.Decimal.Layout

/-!
# Plain numbers

Integers stay integers as long as possible: only a division with a remainder, and
any operation with a double, gives a double. An integer result that does not fit
an amount is an error.
-/

namespace RuleText.Damage

/-- A number in a formula. -/
inductive Number where
  | int (value : Amount)
  | float (value : Float)

namespace Number

/-- Doubles are written out down to `0.0001` and below 10¹⁶. -/
def layout : Decimal.Layout := ⟨-4, 15, [], .up⟩

/-- The number as it is written. -/
def text : Number → Text
  | int n => Text.ofInt n.toInt
  | float x => layout.write x

/-- The number rounded down to an amount. -/
def toAmount : Number → Amount
  | int n => n
  | float x => (Decimal.Binary.ofFloat x).floor

/-- The double nearest to the number. -/
def toFloat : Number → Float
  | int n => Float.ofInt n.toInt
  | float x => x

/-- The number rounded down. -/
def floor (n : Number) : Number :=
  int n.toAmount

/-- The number rounded up. -/
def ceil : Number → Number
  | int n => int n
  | float x => int (Decimal.Binary.ofFloat x).ceil

/-- An operation on two numbers: the first function for two integers, the second
for doubles. -/
def combine (exact : Amount → Amount → Option Amount) (approximate : Float → Float → Float) :
    Number → Number → Except EvalError Number
  | int a, int b => EvalError.orOverflow ((exact a b).map int)
  | a, b => .ok (float (approximate a.toFloat b.toFloat))

/-- The sum. -/
def add : Number → Number → Except EvalError Number :=
  combine Amount.add? (· + ·)

/-- The difference. -/
def sub : Number → Number → Except EvalError Number :=
  combine Amount.sub? (· - ·)

/-- The product. -/
def mul : Number → Number → Except EvalError Number :=
  combine Amount.mul? (· * ·)

/-- Whether the number is zero. -/
def isZero : Number → Bool
  | int n => n == 0
  | float x => x == 0

/-- The quotient, an integer if the division of two integers leaves no remainder
and the quotient fits. -/
def div (a b : Number) : Except EvalError Number :=
  if b.isZero then .error .divisionByZero
  else
    let exact := match a, b with
      | int x, int y =>
        if x.toInt.tmod y.toInt = 0 then Amount.fit? (x.toInt.tdiv y.toInt) else none
      | _, _ => none
    match exact with
    | some q => .ok (int q)
    | none => .ok (float (a.toFloat / b.toFloat))

/-- The opposite number. -/
def neg : Number → Except EvalError Number
  | int n => EvalError.orOverflow ((Amount.neg? n).map int)
  | float x => .ok (float (-x))

/-- The lesser of two numbers, compared as doubles; the first if they are equal. -/
def min (a b : Number) : Number :=
  if b.toFloat < a.toFloat then b else a

/-- The greater of two numbers, compared as doubles; the first if they are equal. -/
def max (a b : Number) : Number :=
  if a.toFloat < b.toFloat then b else a

end Number

end RuleText.Damage
