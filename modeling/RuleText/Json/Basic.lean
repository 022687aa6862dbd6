import RuleText.Text.Keyed

/-!
# JSON values

Numbers written as integers stay apart from those written with a point or an
exponent: `4` and `4.0` are different values and print differently. The fields
of an object are kept in ascending order of their keys, each key once, so that
walking or printing an object needs no other order.
-/

namespace RuleText

namespace Json

/-- A number of a JSON text. The reader gives an integer from −2⁶³ up to but not
including 2⁶⁴ as `int` and every other number as `float`. -/
inductive Number where
  | int (value : Int)
  | float (value : Float)

namespace Number

/-- Integers are equal to integers and doubles to doubles, never to each other. -/
def same : Number → Number → Bool
  | int a, int b => a == b
  | float a, float b => a == b
  | _, _ => false

/-- The double nearest to the number. -/
def toFloat : Number → Float
  | int n => Float.ofInt n
  | float x => x

end Number

end Json

/-- A JSON value. -/
inductive Json where
  | null
  | bool (value : Bool)
  | number (value : Json.Number)
  | string (value : Text)
  | array (elements : List Json)
  | object (fields : List (Text × Json))
deriving Inhabited

namespace Json

/-- The value under a list of keys, each looked up in the object that the one
before it names. -/
def at? : List Text → Json → Option Json
  | [], value => some value
  | key :: keys, object fields => (Keyed.find? key fields).bind (at? keys)
  | _ :: _, _ => none

mutual

/-- Equality of values. Doubles compare as doubles, so that 0.0 equals −0.0. -/
def same : Json → Json → Bool
  | null, null => true
  | bool a, bool b => a == b
  | number a, number b => a.same b
  | string a, string b => a == b
  | array as, array bs => sameElements as bs
  | object as, object bs => sameFields as bs
  | _, _ => false

/-- Equality of lists of values. -/
def sameElements : List Json → List Json → Bool
  | [], [] => true
  | a :: as, b :: bs => same a b && sameElements as bs
  | _, _ => false

/-- Equality of lists of fields. -/
def sameFields : List (Text × Json) → List (Text × Json) → Bool
  | [], [] => true
  | (j, a) :: as, (k, b) :: bs => j == k && same a b && sameFields as bs
  | _, _ => false

end

/-- The members of a list, of equal ones only the first. -/
def distinct (values : List Json) : List Json :=
  values.foldl (fun seen v => if seen.any (same · v) then seen else seen ++ [v]) []

end Json

end RuleText
