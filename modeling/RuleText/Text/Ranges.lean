import RuleText.Text.Basic

/-!
# Character classes given by ranges

A class of characters outside ASCII is listed as ascending ranges of code
points, both ends included. Inside ASCII each class has a rule of its own, so
the tables are asked only about the rest.
-/

namespace RuleText.Text

/-- Whether some range holds the character's code point. -/
def withinRanges (ranges : List (Nat × Nat)) (c : Char) : Bool :=
  ranges.any fun (first, last) => first ≤ c.toNat && c.toNat ≤ last

/-- Whether the character is one of the 128 of ASCII. -/
def isAscii (c : Char) : Bool :=
  c.toNat < 128

end RuleText.Text
