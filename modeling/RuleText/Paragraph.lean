import RuleText.Enrichment.Basic

/-!
# Paragraphs

Rule text comes as lines. A paragraph is a run of lines that are not empty; it is
enriched as a whole as soon as it ends, and one that fails does not keep the others
from being enriched. Span numbers run on from paragraph to paragraph.
-/

namespace RuleText.Paragraph

/-- A line without the carriage return at its end. -/
def withoutReturn (line : Text) : Text :=
  if line.getLast? = some '\r' then line.dropLast else line

/-- The lines of a text. A line ends with a newline, perhaps after a carriage
return; the last line may have no end. -/
def linesOf (t : Text) : List Text :=
  let pieces := t.splitOn '\n'
  let ended := pieces.dropLast.map withoutReturn
  match pieces.getLast? with
  | some [] | none => ended
  | some last => ended ++ [last]

/-- A paragraph as it is enriched: a text, or the line that reports the error. -/
def enrich (e : Enricher) (data : RollData) (paragraph : Text) : StateM Nat (Except Text Text) := do
  match ← (e.enrich data paragraph).run with
  | .ok text => return .ok text
  | .error error => return .error ("Error: ".toList ++ error.message)

/-- Between two lines: the lines of the paragraph that is not finished, each with a newline
behind it, and the number of the next span. -/
structure Progress where
  buffer : Text
  nextId : Nat

/-- Takes in the next line, or the end of the lines. An empty line and the end finish the
paragraph, if there is one; it is enriched without its last newline. -/
def step (e : Enricher) (data : RollData) (p : Progress) :
    Option Text → Option (Except Text Text) × Progress
  | some (c :: rest) => (none, { p with buffer := p.buffer ++ (c :: rest) ++ ['\n'] })
  | _ =>
    if p.buffer = [] then (none, p)
    else
      let (record, nextId) := enrich e data p.buffer.dropLast p.nextId
      (some record, ⟨[], nextId⟩)

/-- Takes in lines and their end. -/
def run (e : Enricher) (data : RollData) (p : Progress) :
    List Text → List (Except Text Text) × Progress
  | [] =>
    let (record, p) := step e data p none
    (record.toList, p)
  | line :: lines =>
    let (record, p) := step e data p (some line)
    let (records, p) := run e data p lines
    (record.toList ++ records, p)

/-- All paragraphs of a list of lines, enriched in order. -/
def enrichAll (e : Enricher) (data : RollData) (lines : List Text) :
    StateM Nat (List (Except Text Text)) := fun nextId =>
  let (records, p) := run e data ⟨[], nextId⟩ lines
  (records, p.nextId)

end RuleText.Paragraph
