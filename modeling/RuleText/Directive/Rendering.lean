import RuleText.Arguments
import RuleText.Damage.Evaluation
import RuleText.Text.Case

/-!
# What directives become

Each kind of directive takes its arguments and becomes a readable text. Numbers
that a reader may want to look up, such as difficulties and damage, are wrapped
in spans, each with a number of its own. A number that has been given to a span
is not given again, also when the directive fails afterwards.
-/

namespace RuleText.Directive

/-- The resolution of a directive: a text or an error, and in both cases the number
for the next span. -/
abbrev Resolve := ExceptT EnrichmentError (StateM Nat)

/-- A resolution that takes arguments as it goes. -/
abbrev Handler := StateT Arguments Resolve

/-- The number of the first span. -/
def firstId : Nat := 1

/-- The number for the next span, which is then used up. -/
def nextId : StateM Nat Nat :=
  modifyGet fun n => (n, n + 1)

/-- The span of a class with a given number. -/
def spanText (id : Nat) (text cls : Text) : Text :=
  "<span class=\"statistic-".toList ++ cls ++ "\" id=\"statistic-".toList ++ cls ++ '-' ::
    Text.ofNat id ++ "\">".toList ++ text ++ "</span>".toList

/-- A text in a span of a class, with the next number. -/
def span (text cls : Text) : StateM Nat Text := do
  return spanText (← nextId) text cls

/-- The last part of a path whose parts have points between them. -/
def uuid (payload : Text) : Text :=
  ((payload.splitOn '.').getLast?).getD payload

namespace Handler

/-- Fails with an error. -/
def fail {α : Type} (e : EnrichmentError) : Handler α :=
  fun _ => throw e

/-- The argument at an index, which must be there and not be used. -/
def index (i : Nat) : Handler Text := do
  match ← modifyGet (Arguments.takeIndex i) with
  | .ok value => return value
  | .error e => fail e

/-- Uses up arguments that do not show. -/
def ignore (keys : List String) : Handler Unit :=
  modify (Arguments.ignore (keys.map String.toList))

/-- The value of a key, if it is there and not empty. -/
def nonempty (key : String) : Handler (Option Text) := do
  return (← modifyGet (Arguments.takeValue key.toList none)).filter (· ≠ [])

/-- The value of the key `type`, or else of the first argument. -/
def typeOrFirst : Handler Text := do
  match ← nonempty "type" with
  | some value => return value
  | none => index 0

end Handler

open Handler

/-- The keys that a template ignores. -/
def templateIgnored : List String :=
  ["damaging", "options", "traits"]

/-- A template: its distance, its width if it is a line, and its shape. -/
def template (data : RollData) : Handler Text := do
  ignore templateIgnored
  let shape ← typeOrFirst
  match ← modifyGet (Arguments.takeResolved "distance".toList data) with
  | none => fail (.missingKey "distance".toList)
  | some distance =>
    let width ← if shape = "line".toList then
        modifyGet (Arguments.takeResolved "width".toList data)
      else pure none
    match width with
    | some width =>
      return distance ++ "-foot (".toList ++ width ++ "-foot wide) ".toList ++ shape
    | none => return distance ++ "-foot ".toList ++ shape

/-- The keys that a check ignores. -/
def checkIgnored : List String :=
  ["against", "defense", "immutable", "name", "overrideTraits", "rollerRole", "showDC", "options",
    "traits"]

/-- A check: its difficulty, whether it is basic, and its type. The difficulty of a
basic or a flat check is no statistic of the creature and has no span. -/
def check (data : RollData) : Handler Text := do
  ignore checkIgnored
  let type ← typeOrFirst
  let basic ← modifyGet (Arguments.takeFlag "basic".toList false)
  let dc ← modifyGet (Arguments.takeResolved "dc".toList data)
  let title := Text.titleCase type
  match basic, dc with
  | true, some dc => return "DC ".toList ++ dc ++ " basic ".toList ++ title
  | true, none => return "basic ".toList ++ title
  | false, none => return title
  | false, some dc =>
    if type = "flat".toList then return "DC ".toList ++ dc ++ " Flat Check".toList
    else return "DC ".toList ++ (← span dc "dc".toList) ++ ' ' :: title

/-- The groups of an instance, the magnitude of each in a span. -/
def damageGroups (shortLabel : Bool) : List Damage.Group → StateM Nat (List Text)
  | [] => return []
  | g :: groups => do
    let magnitude ← span g.magnitude "damage-dice".toList
    let tags := if shortLabel then [] else g.tags.flatMap fun tag => ' ' :: tag
    let more ← damageGroups shortLabel groups
    return (magnitude ++ tags) :: more

/-- An instance of damage with its spans. -/
def damageText (i : Damage.Instance) : StateM Nat Text := do
  return Text.joined " plus ".toList (← damageGroups i.shortLabel i.groups)

/-- The keys that a damage directive ignores. -/
def damageIgnored : List String :=
  ["immutable", "name", "options", "traits"]

/-- Damage: an evaluated formula, or words that are no formula. -/
def damage (data : RollData) : Handler Text := do
  ignore damageIgnored
  let formula ← index 0
  let shortLabel ← modifyGet (Arguments.takeFlag "shortLabel".toList false)
  match Damage.Payload.ofText data formula with
  | .error e => fail (.evaluation e)
  | .ok (.evaluated i) => do
    let inner ← damageText { i with shortLabel }
    span inner "damage".toList
  | .ok (.literal text _) => span text "damage".toList

/-- An inline roll: its amount and its label. -/
def roll (label : Option Text) : Handler Text := do
  let amount := Text.joined [' '] (← modifyGet Arguments.takePositional)
  match label.filter (· ≠ []) with
  | some label => return amount ++ ' ' :: label
  | none => return amount

/-- An action: its name, its difficulty and the statistic that is rolled. -/
def act (data : RollData) : Handler Text := do
  ignore ["options"]
  let name ← index 0
  let action := Text.titleCase (Text.replaceChar '-' [' '] name)
  let dc ← modifyGet (Arguments.takeResolved "dc".toList data)
  let statistic ← match ← nonempty "statistic" with
    | some statistic => pure (some statistic)
    | none => modifyGet (Arguments.takeValue "skill".toList none)
  match dc, statistic with
  | none, none => return action
  | none, some statistic => return action ++ " (".toList ++ statistic ++ [')']
  | some dc, none => return action ++ " (DC ".toList ++ (← span dc "dc".toList) ++ [')']
  | some dc, some statistic =>
    return action ++ " (DC ".toList ++ (← span dc "dc".toList) ++ ' ' :: statistic ++ [')']

/-- Lets a handler take the arguments, all of which it has to use. -/
def handle (args : Arguments) (handler : Handler Text) : Resolve Text := fun id =>
  let (result, id) := handler args id
  (args.outcome result, id)

end RuleText.Directive
