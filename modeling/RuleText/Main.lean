import RuleText.Paragraph

/-!
# The command line

Reads rule text from standard input and writes each paragraph enriched as soon as
it ends. Errors go to standard error and do not end the run.
-/

namespace RuleText.CommandLine

/-- The files that the options name. -/
structure Options where
  translations : Option String
  rollData : Option String
  config : Option String

/-- Reads the options; none if they are not understood. -/
def Options.parse? (options : Options) : List String → Option Options
  | [] => some options
  | "--translations" :: path :: more => parse? { options with translations := some path } more
  | "--roll-data" :: path :: more => parse? { options with rollData := some path } more
  | "--config" :: path :: more => parse? { options with config := some path } more
  | _ => none

/-- The text of a file. -/
def readText (path : String) : IO Text := do
  return (← IO.FS.readFile path).toList

/-- The configuration of a file; a file that is no configuration is an error. -/
def readConfig : Option String → IO Config
  | none => return .default
  | some path => do
    match Config.parse (← readText path) with
    | .ok config => return config
    | .error .notJson => throw (IO.userError "the configuration is not JSON")
    | .error .wrongData => throw (IO.userError "the configuration has unsuitable data")

/-- The roll data of a file; a file that is not JSON is an error. -/
def readRollData : Option String → IO RollData
  | none => return .empty
  | some path => do
    match Json.parse? (← readText path) with
    | some value => return .ofJson value
    | none => throw (IO.userError "the roll data are not JSON")

/-- The translations of a file; a file that cannot be read gives none. -/
def readTranslations : Option String → IO Translations
  | none => return .empty
  | some path => do
    try return (Translations.parse? (← readText path)).getD .empty
    catch _ => return .empty

/-- Enriches the paragraphs of standard input from the next line on. -/
partial def run (e : Enricher) (data : RollData) (progress : Paragraph.Progress) : IO Unit := do
  let raw := (← (← IO.getStdin).getLine).toList
  let line :=
    if raw = [] then none
    else if raw.getLast? = some '\n' then some (Paragraph.withoutReturn raw.dropLast)
    else some raw
  let (record, progress) := Paragraph.step e data progress line
  if let some record := record then
    match record with
    | .ok text => IO.println (String.ofList text)
    | .error text => IO.eprintln (String.ofList text)
    (← IO.getStdout).flush
  if line.isSome then run e data progress

/-- The program with its arguments; the result is its exit code. -/
def start (args : List String) : IO UInt32 := do
  match Options.parse? ⟨none, none, none⟩ args with
  | none =>
    IO.eprintln "usage: [--translations FILE] [--roll-data FILE] [--config FILE]"
    return 2
  | some options =>
    try
      let config ← readConfig options.config
      let data ← readRollData options.rollData
      let translations ← readTranslations options.translations
      run ⟨config, translations⟩ data ⟨[], Directive.firstId⟩
      return 0
    catch e =>
      IO.eprintln s!"Error: {e}"
      return 1

end RuleText.CommandLine

/-- The command line program. -/
def main (args : List String) : IO UInt32 :=
  RuleText.CommandLine.start args
