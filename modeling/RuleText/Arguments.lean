import RuleText.Enrichment.Error
import RuleText.RollData.Basic
import RuleText.Text.Blank

/-!
# Arguments of directives

The payload of a directive is a list of arguments. An argument with a separator
has a key and a value; one without is positional, and its text is both. Every
argument has to be used by the directive, and anything left over is an error.

The arguments themselves never change (`Arguments.arguments`); operations only
mark them as used. A key uses up all arguments with that key, and the last one
not used before gives the value.
-/

namespace RuleText

/-- An argument, and whether it has been used. -/
structure Argument where
  key : Text
  value : Text
  used : Bool
deriving DecidableEq, Repr

namespace Argument

/-- An argument of a payload, cut at the first separator of key and value. -/
def ofText (keyValueSeparator : Char) (t : Text) : Argument :=
  match Text.splitOnce keyValueSeparator t with
  | some (key, value) => ⟨key, value, false⟩
  | none => ⟨t, t, false⟩

/-- Whether key and value are the same text. -/
def isPositional (a : Argument) : Bool :=
  a.key = a.value

/-- The argument marked as used. -/
def use (a : Argument) : Argument := { a with used := true }

/-- The argument as a list of arguments shows it. -/
def text (a : Argument) : Text :=
  if a.isPositional then a.key else a.key ++ '=' :: a.value

end Argument

/-- The arguments of a directive, which `context` names, and the payload that they
come from. -/
structure Arguments where
  raw : Text
  context : Text
  entries : List Argument
deriving DecidableEq, Repr

namespace Arguments

/-- Cuts a payload into arguments. -/
def ofText (raw : Text) (separator keyValueSeparator : Char) (context : Text) : Arguments :=
  ⟨raw, context, (raw.splitOn separator).map (.ofText keyValueSeparator)⟩

/-- Keys and values of all arguments, used or not. -/
def pairs (args : Arguments) : List (Text × Text) :=
  args.entries.map fun a => (a.key, a.value)

/-- The arguments that have not been used. -/
def left (args : Arguments) : List Argument :=
  args.entries.filter fun a => !a.used

/-- The arguments left over, as they are shown. -/
def text (args : Arguments) : Text :=
  "Args(".toList ++ Text.joined ", ".toList (args.left.map Argument.text) ++ [')']

/-- Marks the arguments that satisfy a condition as used. -/
def useAll (p : Argument → Bool) (args : Arguments) : Arguments :=
  { args with entries := args.entries.map fun a => if p a then a.use else a }

/-! ### Taking arguments

Each operation gives its answer and the arguments as they are afterwards. -/

/-- The argument at an index, unless it has been used. -/
def takeAt (index : Nat) (args : Arguments) : Option Argument × Arguments :=
  match args.entries[index]? with
  | none => (none, args)
  | some a =>
    if a.used then (none, args)
    else (some a, { args with entries := args.entries.set index a.use })

/-- The last unused argument with a key; all arguments with that key are used. -/
def takeKey (key : Text) (args : Arguments) : Option Argument × Arguments :=
  (args.left.filter (fun a => a.key = key) |>.getLast?, args.useAll fun a => a.key = key)

/-- Whether a key is given on its own or with the value `true`. -/
def takeFlag (key : Text) (default : Bool) (args : Arguments) : Bool × Arguments :=
  let (found, args) := args.takeKey key
  match found with
  | some a => (a.value = "true".toList || a.isPositional, args)
  | none => (default, args)

/-- The value of a key. -/
def takeValue (key : Text) (default : Option Text) (args : Arguments) : Option Text × Arguments :=
  let (found, args) := args.takeKey key
  ((found.map Argument.value).or default, args)

/-- The value of a key as a set of texts with commas between them. A missing or
empty value gives the default. -/
def takeSet (key : Text) (default : List Text) (args : Arguments) : List Text × Arguments :=
  let (found, args) := args.takeValue key none
  let value := found.getD []
  if value = [] then (Text.sortedSet default, args)
  else (Text.sortedSet ((value.splitOn ',').map Text.trim), args)

/-- The value of a key, with a path replaced by what the roll data holds there. -/
def takeResolved (key : Text) (data : RollData) (args : Arguments) : Option Text × Arguments :=
  let (found, args) := args.takeValue key none
  (found.map data.resolve, args)

/-- The value of the argument at an index, with or without a key. -/
def takeIndex (index : Nat) (args : Arguments) : Except EnrichmentError Text × Arguments :=
  let (found, args) := args.takeAt index
  match found with
  | some a => (.ok a.value, args)
  | none => (.error (.missingArgument index), args)

/-- The value of the argument at an index, or a default. -/
def takeIndexOr (index : Nat) (default : Option Text) (args : Arguments) :
    Option Text × Arguments :=
  let (found, args) := args.takeAt index
  ((found.map Argument.value).or default, args)

/-- The values of all positional arguments that are left, in order. -/
def takePositional (args : Arguments) : List Text × Arguments :=
  ((args.left.filter Argument.isPositional).map Argument.value, args.useAll Argument.isPositional)

/-- Uses up arguments by their keys, whatever their values. -/
def ignore (keys : List Text) (args : Arguments) : Arguments :=
  keys.foldl (fun args key => (args.takeKey key).2) args

/-! ### Leaving nothing over -/

/-- Fails if an argument is left over. -/
def checkUsed (args : Arguments) : Except EnrichmentError Unit :=
  if args.left = [] then .ok ()
  else
    .error (.unconsumed
      ((args.left.filter fun a => !a.isPositional).map Argument.key)
      ((args.left.filter Argument.isPositional).map Argument.key))

/-- The outcome of a use of the arguments: what it gives, if it succeeds and leaves
nothing over. Any error is annotated with the context and the payload. -/
def outcome {α : Type} (args : Arguments) (result : Except EnrichmentError (α × Arguments)) :
    Except EnrichmentError α :=
  let checked := do
    let (a, rest) ← result
    rest.checkUsed
    return a
  checked.mapError (.annotated args.context args.raw)

end Arguments

end RuleText
