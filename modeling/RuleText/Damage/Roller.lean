import RuleText.Amount

/-!
# Sources of die results

A roller gives the results of a number of dice with the same number of sides. Two
rollers are at hand: one counts upwards in fixed steps, the other turns a
repeated list of 32-bit words into fair results.

A word `v` is turned into a die with `n` sides by multiplication: the high half
of `v · n` is the result counted from 0. The low half decides whether the word is
fair to all sides; if not, the next word is taken.
-/

namespace RuleText.Damage

/-- Words are numbers below 2³², and no die has more sides than a word can count. -/
def wordLimit : Nat := 4294967296

/-- A source of die results with a state. `rolls count sides` are the results of
`count` dice, each from 1 to `sides`. -/
structure Roller (σ : Type) where
  rolls : (count sides : Nat) → StateM σ (List Nat)

/-- The results of `count` dice, one after the other. -/
def rollEach {σ : Type} (die : StateM σ Nat) : Nat → StateM σ (List Nat)
  | 0 => pure []
  | count + 1 => do
    let first ← die
    let more ← rollEach die count
    return first :: more

namespace StepRoller

/-- The next result counted upwards from 1, before it is brought into the range of
a die. -/
abbrev State := Nat

/-- The first state: a start of 0 counts as 1. -/
def start (n : Nat) : State :=
  max n 1

/-- A roller whose results go up by `step` from die to die and start again at 1
after the number of sides. -/
def roller (step : Nat) : Roller State where
  rolls count sides := rollEach (fun current =>
    ((current - 1) % sides + 1, current + step)) count

end StepRoller

/-- A list of 32-bit words that repeats without end, and how many have been drawn
from it. -/
structure WordSource where
  words : List UInt32
  drawn : Nat

namespace WordSource

/-- The next word. A list without words gives zeros. -/
def next : StateM WordSource Nat := fun source =>
  let word := (source.words[source.drawn % source.words.length]?).getD 0
  (word.toNat, { source with drawn := source.drawn + 1 })

/-- One die: words are drawn until the low half of the product is at most `zone`.
After `tries` refused words in vain the die shows 1. -/
def die (sides zone : Nat) : Nat → StateM WordSource Nat
  | 0 => pure 1
  | tries + 1 => do
    let word ← next
    let product := word * sides
    if product % wordLimit ≤ zone then return 1 + product / wordLimit
    else die sides zone tries

/-- The greatest low half that is fair to all sides. -/
def exactZone (sides : Nat) : Nat :=
  wordLimit - 1 - (wordLimit - sides) % sides

/-- A bound on the low half that is found without a division: the number of sides
moved up to the highest bit, less one. -/
def shiftedZone (sides : Nat) : Nat :=
  sides * Nat.pow 2 (31 - sides.log2) - 1

/-- Every word is tried once before a die is given up, since the words repeat. -/
def tryAll (sides zone : Nat) : StateM WordSource Nat := fun source =>
  die sides zone source.words.length source

/-- The roller that draws from a source of words. -/
def roller : Roller WordSource where
  rolls count sides := rollEach (tryAll sides (exactZone sides)) count

/-- The results of dice that are rolled one by one. -/
def rollSingly (count sides : Nat) : StateM WordSource (List Nat) :=
  rollEach (tryAll sides (shiftedZone sides)) count

end WordSource

end RuleText.Damage
