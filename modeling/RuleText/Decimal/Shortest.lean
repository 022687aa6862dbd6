import RuleText.Decimal.Binary
import RuleText.Text.Basic

/-!
# The fewest digits that read back

Every decimal in a certain interval around a double is read as that double. Of
the decimals in it, the ones with the fewest digits are looked for, and of those
the one nearest to the exact value. On the grid of numbers with a given count of
digits only the two neighbours of the value have to be tried. All comparisons
are between whole numbers.
-/

namespace RuleText.Decimal

/-- Which of two equally near decimals of the same length is taken. -/
inductive Tie where
  | toEven
  | up
deriving DecidableEq, Repr

/-- The fractions `low / den ≤ value / den ≤ high / den`: a positive double with
the ends of the interval of reals that round to it. The ends belong to it when
`closed` holds. -/
structure Interval where
  low : Nat
  value : Nat
  high : Nat
  den : Nat
  closed : Bool

namespace Interval

/-- The interval of the double `m · 2^e`. Half the distance to the next double is
on either side, but below a power of two the doubles are twice as dense. -/
def ofDouble (m : Nat) (e : Int) : Interval :=
  let below := if m = Binary.hiddenBit ∧ -1074 < e then 1 else 2
  let (scale, den) := Binary.fraction 1 (e - 2)
  ⟨(4 * m - below) * scale, 4 * m * scale, (4 * m + 2) * scale, den, m % 2 = 0⟩

/-- Every quantity measured in units of `10^-places`. -/
def scaled (i : Interval) (places : Int) : Interval :=
  if 0 ≤ places then
    let p := Nat.pow 10 places.toNat
    { i with low := i.low * p, value := i.value * p, high := i.high * p }
  else { i with den := i.den * Nat.pow 10 (-places).toNat }

/-- Whether a whole number lies in the interval. -/
def holds (i : Interval) (n : Nat) : Bool :=
  if i.closed then i.low ≤ n * i.den && n * i.den ≤ i.high
  else i.low < n * i.den && n * i.den < i.high

/-- The neighbour of the value among the whole numbers that lies in the interval,
the nearer one if both do. -/
def neighbour? (i : Interval) (tie : Tie) : Option Nat :=
  let n := i.value / i.den
  match i.holds n, i.holds (n + 1) with
  | false, false => none
  | true, false => some n
  | false, true => some (n + 1)
  | true, true =>
    match compare (2 * i.value) ((2 * n + 1) * i.den) with
    | .lt => some n
    | .gt => some (n + 1)
    | .eq => match tie with
      | .up => some (n + 1)
      | .toEven => some (if n % 2 = 0 then n else n + 1)

/-- The count of digits before the point, or for a value below 1 the negated
count of zeros that follow the point. -/
def magnitude (i : Interval) : Int :=
  if i.den ≤ i.value then (Text.ofNat (i.value / i.den)).length
  else 1 - (Text.ofNat (i.den / i.value)).length

/-- Tries ever finer grids, `tries` of them from `places` on. -/
def search (i : Interval) (tie : Tie) : Nat → Int → Nat × Int
  | 0, places => ((i.scaled places).value / (i.scaled places).den, -places)
  | tries + 1, places =>
    match (i.scaled places).neighbour? tie with
    | some n => (n, -places)
    | none => search i tie tries (places + 1)

end Interval

/-- Digits `d` and a power `p` for the positive double `m · 2^e`: `d · 10^p` is the
shortest decimal that reads back to it. Seventeen digits always suffice. -/
def shortest (tie : Tie) (m : Nat) (e : Int) : Nat × Int :=
  let i := Interval.ofDouble m e
  i.search tie 17 (1 - i.magnitude)

end RuleText.Decimal
