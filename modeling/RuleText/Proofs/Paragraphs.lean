import RuleText.Paragraph

/-!
# The paragraphs of a list of lines

The lines are taken in one by one, with a buffer for the paragraph that is not finished. What
comes out is what one gets by cutting the lines at the empty ones first: a record for each
maximal run of lines that are not empty, of the lines joined with newlines, in their order. A
paragraph that fails has a record as well, and the paragraphs behind it are enriched with the
span numbers that it has left.
-/

namespace RuleText.Paragraph

/-- The parts between empty lines that are not empty themselves. -/
def runs (lines : List Text) : List (List Text) :=
  (lines.splitOnP List.isEmpty).filter (!·.isEmpty)

/-- Paragraphs are enriched one after the other, each with the span numbers from the one that
the paragraph before it has left. Each has one record: its text, or the report of its error. -/
inductive Enriches (e : Enricher) (data : RollData) :
    Nat → List Text → List (Except Text Text) → Nat → Prop
  | done (id : Nat) : Enriches e data id [] [] id
  | text {id next last : Nat} {paragraph text : Text} {more : List Text}
      {records : List (Except Text Text)} :
      (e.enrich data paragraph).run id = (.ok text, next) → Enriches e data next more records last →
      Enriches e data id (paragraph :: more) (.ok text :: records) last
  | error {id next last : Nat} {paragraph : Text} {why : EnrichmentError} {more : List Text}
      {records : List (Except Text Text)} :
      (e.enrich data paragraph).run id = (.error why, next) →
      Enriches e data next more records last →
      Enriches e data id (paragraph :: more)
        (.error ("Error: ".toList ++ why.message) :: records) last

variable {e : Enricher} {data : RollData} {id next last : Nat} {lines pending : List Text}

/-! ### Runs -/

theorem Enriches.append {ps qs : List Text} {rs ss : List (Except Text Text)}
    (first : Enriches e data id ps rs next) (second : Enriches e data next qs ss last) :
    Enriches e data id (ps ++ qs) (rs ++ ss) last := by
  induction first with
  | done => exact second
  | text enriched _ ih => exact .text enriched (ih second)
  | error enriched _ ih => exact .error enriched (ih second)

end RuleText.Paragraph
