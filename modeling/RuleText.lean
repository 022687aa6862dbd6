import RuleText.Main
import RuleText.Proofs.Arguments.Consumption
import RuleText.Proofs.Directive.Recognition
import RuleText.Proofs.Directive.Numbering
import RuleText.Proofs.Enrichment.Locality
import RuleText.Proofs.Formula.Lexing
import RuleText.Proofs.Formula.Grammar
import RuleText.Proofs.Formula.Reading
import RuleText.Proofs.Formula.Soundness
import RuleText.Proofs.Formula.Completeness
import RuleText.Proofs.Joining
import RuleText.Proofs.Damage.Operations
import RuleText.Proofs.Damage.WellFormed
import RuleText.Proofs.Damage.Evaluation
import RuleText.Proofs.Damage.Invariant
import RuleText.Proofs.Damage.Totals
import RuleText.Proofs.Damage.Conservation
import RuleText.Proofs.Damage.ReadBack
import RuleText.Proofs.Directive.Scanning
import RuleText.Proofs.Enrichment.DisplayTexts
import RuleText.Proofs.Enrichment.Depth
import RuleText.Proofs.Enrichment.Steps
import RuleText.Proofs.Enrichment.Localization
import RuleText.Proofs.Enrichment.Errors
import RuleText.Proofs.Damage.Merging
import RuleText.Proofs.Damage.Rolling
import RuleText.Proofs.Damage.Scaling
import RuleText.Proofs.Damage.Factors
import RuleText.Proofs.Damage.Shifting
import RuleText.Proofs.Damage.Tagging
import RuleText.Proofs.Damage.Integers
import RuleText.Proofs.Arguments.Unused
import RuleText.Proofs.Directive.Rolls
import RuleText.Proofs.Directive.Strictness
import RuleText.Proofs.Decimal.Nearest
import RuleText.Proofs.Decimal.Normal
import RuleText.Proofs.Decimal.Rounding
import RuleText.Proofs.Decimal.Doubles
import RuleText.Proofs.RollData.References
import RuleText.Proofs.Damage.Range
import RuleText.Proofs.Formula.Blanks
import RuleText.Proofs.Damage.Extremes
import RuleText.Proofs.Damage.Quotients
import RuleText.Proofs.Enrichment.Undirected
import RuleText.Proofs.Translations
import RuleText.Proofs.Paragraphs
import RuleText.Proofs.Formula.Reports
import RuleText.Proofs.Directive.Closing
import RuleText.Proofs.Directive.Renderings
