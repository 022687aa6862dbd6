import RuleText.Damage.Error

/-!
# Errors of enrichment

An error in resolving a directive tells what is wrong; most are wrapped once with
the directive and the arguments in which they arose.
-/

namespace RuleText

/-- Why a directive cannot be resolved. -/
inductive EnrichmentError where
  /-- Arguments that the directive has no use for, those with a key apart. -/
  | unconsumed (keyed positional : List Text)
  | missingArgument (index : Nat)
  | missingKey (key : Text)
  | unknownDirective (directive : Text)
  | localizeDepth (key : Text) (limit : Nat)
  | unknownPath (error : PathError)
  | evaluation (error : Damage.EvalError)
  | annotated (context args : Text) (source : EnrichmentError)
deriving DecidableEq

namespace EnrichmentError

/-- The error in words. -/
def message : EnrichmentError → Text
  | unconsumed keyed positional =>
    "unconsumed keys ".toList ++ Text.quotedList keyed ++ " and arguments ".toList ++
      Text.quotedList positional
  | missingArgument index => "no argument at index ".toList ++ Text.ofNat index
  | missingKey key => "missing required argument ".toList ++ Text.quoted key
  | unknownDirective directive => "unknown enricher ".toList ++ directive
  | localizeDepth key limit =>
    "localization of ".toList ++ Text.quoted key ++ " nests deeper than ".toList ++
      Text.ofNat limit ++ " levels".toList
  | unknownPath error => error.message
  | evaluation error => error.message
  | annotated context args source =>
    source.message ++ " (context=".toList ++ context ++ ", args=".toList ++ args ++ [')']

/-- The error inside all annotations. -/
def rootCause : EnrichmentError → EnrichmentError
  | annotated _ _ source => source.rootCause
  | error => error

@[simp] theorem rootCause_annotated (context args : Text) (source : EnrichmentError) :
    (annotated context args source).rootCause = source.rootCause := rfl

end EnrichmentError

end RuleText
