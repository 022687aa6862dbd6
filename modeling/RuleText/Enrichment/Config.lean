import RuleText.Json.Reader

/-!
# Configuration

The markup of enriched text can be configured by a JSON text: an object with some
of the fields, or an array with the values of the first few. What is left out has
its default.

The text is read from the left, and the first problem is reported: either the
text is no JSON, or its data do not suit.
-/

namespace RuleText

/-- The markup of enriched text, and how deep localized texts may refer to each
other; without a limit they may do so to any depth. -/
structure Config where
  lineBreak : Text
  ruleMarker : Text
  detailsOpen : Text
  detailsClose : Text
  maxLocalizeDepth : Option UInt64
deriving DecidableEq, Repr

namespace Config

/-- The configuration of a text in which nothing is configured. -/
def default : Config where
  lineBreak := "</br>".toList
  ruleMarker := "<hr />\n".toList
  detailsOpen := "<div class=\"details\">".toList
  detailsClose := "</div>".toList
  maxLocalizeDepth := some 32

/-- What is wrong with a configuration text. -/
inductive Fault where
  | notJson
  | wrongData
deriving DecidableEq, Repr

/-- The fields of a configuration. -/
inductive Field where
  | lineBreak
  | ruleMarker
  | detailsOpen
  | detailsClose
  | maxLocalizeDepth
deriving DecidableEq, Repr

namespace Field

/-- All fields in order. -/
def all : List Field := [lineBreak, ruleMarker, detailsOpen, detailsClose, maxLocalizeDepth]

/-- The key of a field. -/
def key : Field → Text
  | lineBreak => "line_break".toList
  | ruleMarker => "rule_marker".toList
  | detailsOpen => "details_open".toList
  | detailsClose => "details_close".toList
  | maxLocalizeDepth => "max_localize_depth".toList

/-- The field of a key. -/
def ofKey? (key : Text) : Option Field :=
  all.find? fun f => f.key = key

end Field

/-- The fault of a token where a value should stand: of a value it is the type that
is wrong, and anything else is no value. -/
def faultOf : Json.Token → Fault
  | .null | .bool _ | .number _ | .string _ | .openBrace | .openBracket => .wrongData
  | .closeBrace | .closeBracket | .comma | .colon | .invalid => .notJson

/-- The text that a token gives. -/
def textOf : Json.Token → Except Fault Text
  | .string s => .ok s
  | token => .error (faultOf token)

/-- The depth that a token gives: a number of 64 bits, or null for no limit. -/
def depthOf : Json.Token → Except Fault (Option UInt64)
  | .null => .ok none
  | .number (.int n) =>
    if 0 ≤ n ∧ n < Amount.unsignedLimit then .ok (some (UInt64.ofNat n.toNat))
    else .error .wrongData
  | token => .error (faultOf token)

/-- Sets a field to the value that a token gives. -/
def setField (field : Field) (token : Json.Token) (config : Config) : Except Fault Config :=
  match field with
  | .lineBreak => (textOf token).map fun s => { config with lineBreak := s }
  | .ruleMarker => (textOf token).map fun s => { config with ruleMarker := s }
  | .detailsOpen => (textOf token).map fun s => { config with detailsOpen := s }
  | .detailsClose => (textOf token).map fun s => { config with detailsClose := s }
  | .maxLocalizeDepth => (depthOf token).map fun n => { config with maxLocalizeDepth := n }

/-- Nothing may follow the configuration. -/
def finish (config : Config) (rest : List Json.Token) : Except Fault Config :=
  match rest with
  | [] => .ok config
  | _ :: _ => .error .notJson

/-- Reads the fields of an object from a key on. No field may be set twice. -/
def readFields (seen : List Field) (config : Config) (tokens : List Json.Token) :
    Except Fault Config :=
  match tokens with
  | .string key :: rest =>
    match Field.ofKey? key with
    | none => .error .wrongData
    | some field =>
      if field ∈ seen then .error .wrongData
      else
        match rest with
        | .colon :: token :: rest =>
          match setField field token config with
          | .error fault => .error fault
          | .ok config =>
            match rest with
            | .comma :: rest => readFields (field :: seen) config rest
            | .closeBrace :: rest => finish config rest
            | _ => .error .notJson
        | _ => .error .notJson
  | _ => .error .notJson

/-- Reads values for the given fields from the tokens after a value, each after a
comma. -/
def readMore (fields : List Field) (config : Config) (tokens : List Json.Token) :
    Except Fault Config :=
  match fields, tokens with
  | _, .closeBracket :: rest => finish config rest
  | field :: fields, .comma :: token :: rest =>
    match setField field token config with
    | .error fault => .error fault
    | .ok config => readMore fields config rest
  | _, _ => .error .notJson

/-- The configuration that tokens write. -/
def ofTokens (tokens : List Json.Token) : Except Fault Config :=
  match tokens with
  | [] => .error .notJson
  | .openBrace :: .closeBrace :: rest => finish default rest
  | .openBrace :: rest => readFields [] default rest
  | .openBracket :: .closeBracket :: rest => finish default rest
  | .openBracket :: rest => readMore Field.all default (.comma :: rest)
  | token :: _ => .error (faultOf token)

/-- The configuration that a text writes. -/
def parse (t : Text) : Except Fault Config :=
  ofTokens (Json.Token.ofText t)

end Config

end RuleText
