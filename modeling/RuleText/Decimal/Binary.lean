import RuleText.Amount

/-!
# The exact value of a double

A finite double is a whole number of units of a power of two. Rounding to an
integer and choosing decimal digits are done on that exact value, in unbounded
integers, and never on the double itself.
-/

namespace RuleText.Decimal

/-- What the bits of a double stand for. A finite value is `significand · 2^exponent`
with a sign of its own, since zero has two. -/
inductive Binary where
  | finite (negative : Bool) (significand : Nat) (exponent : Int)
  | infinite (negative : Bool)
  | undefined
deriving DecidableEq, Repr

namespace Binary

/-- The bit above the 52 stored ones, 2⁵², which is set in the significand of all but the
smallest doubles. -/
def hiddenBit : Nat := 4503599627370496

/-- Reads the sign bit, the 11 bits of the exponent and the 52 of the fraction.
Exponent field 0 has no hidden bit, and field 2047 holds no numbers. -/
def ofBits (bits : UInt64) : Binary :=
  let n := bits.toNat
  let negative := n / (2048 * hiddenBit) == 1
  let field := n / hiddenBit % 2048
  let fraction := n % hiddenBit
  if field = 2047 then
    if fraction = 0 then infinite negative else undefined
  else if field = 0 then finite negative fraction (-1074)
  else finite negative (hiddenBit + fraction) (Int.ofNat field - 1075)

/-- The exact value of a double. -/
def ofFloat (x : Float) : Binary :=
  ofBits x.toBits

/-- `significand · 2^exponent` as a fraction with a positive denominator. -/
def fraction (significand : Nat) (exponent : Int) : Nat × Nat :=
  if 0 ≤ exponent then (significand * Nat.pow 2 exponent.toNat, 1)
  else (significand, Nat.pow 2 (-exponent).toNat)

/-- The integers below and above a signed fraction, nearest to it. -/
def bounds (negative : Bool) (num den : Nat) : Int × Int :=
  let low : Int := num / den
  let high : Int := (num + den - 1) / den
  if negative then (-high, -low) else (low, high)

/-- The greatest integer not above the value, moved into the range of amounts.
An undefined value counts as zero. -/
def floor : Binary → Amount
  | finite negative m e => Amount.saturate (bounds negative (fraction m e).1 (fraction m e).2).1
  | infinite negative => Amount.saturate (if negative then Amount.least else Amount.greatest)
  | undefined => 0

/-- The least integer not below the value, moved into the range of amounts. An
undefined value counts as zero. -/
def ceil : Binary → Amount
  | finite negative m e => Amount.saturate (bounds negative (fraction m e).1 (fraction m e).2).2
  | infinite negative => Amount.saturate (if negative then Amount.least else Amount.greatest)
  | undefined => 0

example : (ofFloat (-2.5)).floor = -3 ∧ (ofFloat (-2.5)).ceil = -2 := by decide +kernel

end Binary

end RuleText.Decimal
