import RuleText.RollData.Path
import RuleText.Json.Printer

/-!
# Roll data

Formulas and arguments refer to attributes of a creature or an item by paths.
The attributes are the fields of a JSON object and are only read.
-/

namespace RuleText

/-- Named JSON values. -/
structure RollData where
  names : List (Text × Json)

namespace RollData

/-- Roll data without names. -/
def empty : RollData := ⟨[]⟩

/-- The fields of an object; any other value gives no names. -/
def ofJson : Json → RollData
  | .object fields => ⟨fields⟩
  | _ => empty

/-- Sets a name. -/
def set (data : RollData) (name : Text) (value : Json) : RollData :=
  ⟨Keyed.set name value data.names⟩

/-- The value that a path leads to from the names. -/
def lookup (data : RollData) (path : Text) : Except PathError Json :=
  match Path.steps? path with
  | none => .error ⟨path⟩
  | some steps =>
    match steps.foldlM (fun value step => step.follow? value) (.object data.names) with
    | none => .error ⟨path⟩
    | some value => .ok value

/-- An argument `@path` whose path leads to a string or a number becomes its text;
any other argument stays as it is. -/
def resolve (data : RollData) (argument : Text) : Text :=
  match argument with
  | '@' :: path =>
    match data.lookup path with
    | .ok (.string s) => s
    | .ok (.number n) => n.compact
    | _ => argument
  | _ => argument

/-- The fields of a document with its hardness, which is 0 if it has none. -/
def commonFields (document : Json) : List (Text × Json) :=
  let fields := match document with
    | .object fields => fields
    | _ => []
  let hardness := Json.at? ["system".toList, "attributes".toList, "hardness".toList] document
  Keyed.set "hardness".toList (hardness.getD (.number (.int 0))) fields

/-- Roll data for a creature, under the name `actor`: the fields of its document
with its level, distinct traits, size and hardness. -/
def forActor (document : Json) : RollData :=
  let system (keys : List String) := Json.at? ("system".toList :: keys.map String.toList) document
  let level := (system ["details", "level", "value"]).getD .null
  let traits := match system ["traits", "value"] with
    | some (.array values) => Json.distinct values
    | _ => []
  let size := (system ["traits", "size", "value"]).getD (.string "med".toList)
  empty.set "actor".toList <| .object <|
    Keyed.set "size".toList size <|
    Keyed.set "traits".toList (.array traits) <|
    Keyed.set "level".toList level (commonFields document)

/-- Roll data for an item, under the name `item`: the fields of its document with
its hardness. -/
def forItem (document : Json) : RollData :=
  empty.set "item".toList (.object (commonFields document))

end RollData

end RuleText
