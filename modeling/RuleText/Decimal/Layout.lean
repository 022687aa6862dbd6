import RuleText.Decimal.Shortest

/-!
# Written floating point numbers

A layout says how the chosen digits are set: which numbers are written with a
point in its true place, which with an exponent, and how the exponent looks.
-/

namespace RuleText.Decimal

/-- The decisions of a number format. A number whose first digit stands for
`10^x` is written out in full for `x` from `leastPlain` to `greatestPlain`. -/
structure Layout where
  leastPlain : Int
  greatestPlain : Int
  plusSign : Text
  tie : Tie

namespace Layout

/-- Digits with the point in its true place, the first digit standing for `10^x`.
At least one digit follows the point. -/
def plain (digits : Text) (x : Int) : Text :=
  if x < 0 then "0.".toList ++ List.replicate (-x - 1).toNat '0' ++ digits
  else
    let whole := x.toNat + 1
    if digits.length ≤ whole then
      digits ++ List.replicate (whole - digits.length) '0' ++ ".0".toList
    else digits.take whole ++ '.' :: digits.drop whole

/-- Digits with the point after the first, and the power of ten that it stands
for. -/
def scientific (plusSign digits : Text) (x : Int) : Text :=
  let mantissa := match digits with
    | d :: e :: more => d :: '.' :: e :: more
    | short => short
  mantissa ++ 'e' :: (if x < 0 then [] else plusSign) ++ Text.ofInt x

/-- A number without its sign. -/
def unsigned (layout : Layout) (m : Nat) (e : Int) : Text :=
  if m = 0 then "0.0".toList
  else
    let (d, power) := shortest layout.tie m e
    let all := Text.ofNat d
    let digits := (all.reverse.dropWhile (· = '0')).reverse
    let x := power + all.length - 1
    if layout.leastPlain ≤ x ∧ x ≤ layout.greatestPlain then plain digits x
    else scientific layout.plusSign digits x

/-- The text of a double. -/
def write (layout : Layout) (x : Float) : Text :=
  let sign (negative : Bool) : Text := if negative then ['-'] else []
  match Binary.ofFloat x with
  | .finite negative m e => sign negative ++ layout.unsigned m e
  | .infinite negative => sign negative ++ "inf".toList
  | .undefined => "NaN".toList

end Layout

end RuleText.Decimal
