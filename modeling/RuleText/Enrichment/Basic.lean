import RuleText.Directive.Kind
import RuleText.Directive.Occurrence
import RuleText.Directive.Rendering
import RuleText.Enrichment.Config
import RuleText.Translations

/-!
# Enriching rule text

The markup of rules and line breaks is written first. Then the directives are
resolved in three passes over the text: damage blocks, whose payload may hold
brackets, then all blocks, then inline directives. Each pass reads the text that
the one before it has written. A directive with a display text becomes that text.

A localized text is enriched by itself before it takes the place of its
directive. How many localized texts may stand inside each other is counted down,
which is why enrichment always ends.
-/

namespace RuleText

/-- A configuration and the translations of localized texts. -/
structure Enricher where
  config : Config
  translations : Translations

namespace Enricher

open Directive

/-- An enricher with the default configuration and no translations. -/
def plain : Enricher := ⟨.default, .empty⟩

/-- How many localized texts may stand inside each other. Without a configured limit
it is one more than the greatest limit that can be configured. -/
def levels (e : Enricher) : Nat :=
  match e.config.maxLocalizeDepth with
  | some limit => limit.toNat
  | none => Amount.unsignedLimit

/-- Writes the markup: every rule marker opens the details, which are closed once at
the end, and then every newline becomes a line break. -/
def markup (config : Config) (text : Text) : Text :=
  let ruled :=
    if config.ruleMarker ≠ [] ∧ Text.occursIn config.ruleMarker text then
      Text.replaceAll config.ruleMarker config.detailsOpen text ++ config.detailsClose
    else text
  Text.replaceChar '\n' config.lineBreak ruled

/-- The text that a block directive becomes. `localize` gives the text of a
localized key. -/
def resolveBlock (data : RollData) (localize : Text → Resolve Text) (o : Occurrence) :
    Resolve Text :=
  match o.display with
  | some display => pure display
  | none =>
    let args (context : String) : Arguments := .ofText o.payload '|' ':' context.toList
    match Kind.ofBlockName o.name with
    | .localize => localize o.payload
    | .uuid => pure (uuid o.payload)
    | .template => handle (args "@Template") (template data)
    | .check => handle (args "@Check") (check data)
    | .damage => handle (args "@Damage") (damage data)
    | _ => throw (.unknownDirective o.text)

/-- The text that an inline directive becomes. The first `#` of its payload starts
a label. -/
def resolveInline (data : RollData) (o : Occurrence) : Resolve Text :=
  match o.display with
  | some display => pure display
  | none =>
    let (raw, label) := match Text.splitOnce '#' o.payload with
      | some (raw, label) => (raw, some label)
      | none => (o.payload, none)
    let args : Arguments :=
      .ofText raw.trim ' ' '=' ("[[/".toList ++ o.name ++ "]]".toList)
    match Kind.ofInlineName o.name with
    | .roll => handle args (roll label)
    | .act => handle args (act data)
    | _ => throw (.unknownDirective o.text)

/-- Enriches a text whose localized keys become what `localize` gives. -/
def enrichWith (config : Config) (data : RollData) (localize : Text → Resolve Text)
    (text : Text) : Resolve Text := do
  let text := markup config text
  let text ← replaceAll (resolveBlock data localize) (scan damageBlock? text)
  let text ← replaceAll (resolveBlock data localize) (scan block? text)
  replaceAll (resolveInline data) (scan inline? text)

/-- Enriches a text in which localized texts may stand inside each other to the given
number of levels. -/
def enrichWithin (e : Enricher) (data : RollData) : Nat → Text → Resolve Text
  | 0 => enrichWith e.config data fun key => throw (.localizeDepth key e.levels)
  | levels + 1 => enrichWith e.config data fun key =>
      enrichWithin e data levels (e.translations.translate key)

/-- Enriches a text. -/
def enrich (e : Enricher) (data : RollData) (text : Text) : Resolve Text :=
  e.enrichWithin data e.levels text

end Enricher

end RuleText
