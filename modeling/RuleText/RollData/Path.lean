import RuleText.Amount
import RuleText.Text.Quoted
import RuleText.Json.Basic

/-!
# Paths into roll data

A path such as `items[0].name` is a list of steps into a JSON value: a key into
an object, an index into an array. Points separate its parts; each part is a key
followed by indexes in brackets, and one of the two may be missing.
-/

namespace RuleText

/-- One step into a JSON value. -/
inductive Step where
  | key (name : Text)
  | index (position : Nat)
deriving DecidableEq, Repr

namespace Step

/-- The value that the step leads to. -/
def follow? : Step → Json → Option Json
  | key name, .object fields => Keyed.find? name fields
  | index position, .array elements => elements[position]?
  | _, _ => none

end Step

namespace Path

/-- An index: decimal digits, perhaps after a plus sign, for a number below 2⁶⁴. -/
def index? (t : Text) : Option Nat :=
  let digits := (Text.after? ['+'] t).getD t
  if digits ≠ [] ∧ digits.all Char.isDigit ∧ Text.digitsValue digits < Amount.unsignedLimit then
    some (Text.digitsValue digits)
  else none

/-- Indexes in brackets, with nothing before, between or after them. -/
def indexes? (t : Text) : Option (List Step) :=
  match t with
  | [] => some []
  | '[' :: t =>
    match _ : Text.splitOnce ']' t with
    | none => none
    | some (digits, rest) => do
      let position ← index? digits
      let more ← indexes? rest
      return .index position :: more
  | _ => none
termination_by t.length
decreasing_by
  have := (Text.eq_of_splitOnce ‹_›).1
  simp only [this, List.length_append, List.length_cons]
  omega

/-- The steps of the part between two points: a key up to the first bracket, then
indexes. -/
def part? (t : Text) : Option (List Step) :=
  let key := t.takeWhile (· ≠ '[')
  let rest := t.dropWhile (· ≠ '[')
  if key = [] ∧ rest = [] then none
  else
    (indexes? rest).map fun steps => if key = [] then steps else .key key :: steps

/-- The steps of a path. -/
def steps? (path : Text) : Option (List Step) :=
  ((path.splitOn '.').mapM part?).map List.flatten

example : steps? "items[0].name".toList =
    some [.key "items".toList, .index 0, .key "name".toList] := by decide +kernel

end Path

/-- A path that leads nowhere. -/
structure PathError where
  path : Text
deriving DecidableEq, Repr

namespace PathError

/-- The error in words. -/
def message (e : PathError) : Text :=
  "unknown roll data path ".toList ++ Text.quoted e.path

end PathError

end RuleText
