import RuleText.Text.Quoted
import RuleText.Formula.Token

/-!
# Errors of formulas that do not parse

An error says what is wrong and where: the bytes from `start` to `stop` of the
formula, which are the token at fault or the empty place at the end.
-/

namespace RuleText.Formula

namespace ParseError

/-- What is wrong with a formula. -/
inductive Cause where
  /-- A token, or the end of the formula, where other tokens can stand. -/
  | unexpectedToken (found : Option Kind) (expected : List Kind)
  /-- A character of no token where tokens can stand. -/
  | unexpectedString (expected : List Kind)
  | invalidNumber
  | zeroDice
  | detachedTag
deriving DecidableEq, Repr

/-- A choice of kinds in words; no kinds stand for the end of the formula. -/
def choice : List Kind → Text
  | [] => "end of input".toList
  | [a] => a.text
  | [a, b] => a.text ++ " or ".toList ++ b.text
  | kinds =>
    (kinds.dropLast.flatMap fun k => k.text ++ ", ".toList) ++ "or ".toList ++
      (kinds.getLast?.map Kind.text).getD []

/-- The cause in words. -/
def Cause.message : Cause → Text
  | unexpectedToken none expected => "unexpected end of input, expected ".toList ++ choice expected
  | unexpectedToken (some found) expected =>
    "unexpected token: found ".toList ++ found.text ++ ", expected ".toList ++ choice expected
  | unexpectedString expected => "expected ".toList ++ choice expected
  | invalidNumber => "number out of range".toList
  | zeroDice => "dice must have a non-zero count and size".toList
  | detachedTag => "hyphenated tags cannot contain whitespace".toList

end ParseError

/-- An error with its place and the text found there. -/
structure ParseError where
  cause : ParseError.Cause
  start : Nat
  stop : Nat
  slice : Text
deriving DecidableEq, Repr

namespace ParseError

/-- The error in words. -/
def message (e : ParseError) : Text :=
  "error at position ".toList ++ Text.ofNat e.start ++ " (".toList ++ Text.quoted e.slice ++
    "): ".toList ++ e.cause.message

end ParseError

end RuleText.Formula
