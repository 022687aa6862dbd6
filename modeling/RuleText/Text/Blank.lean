import RuleText.Text.Ranges

/-!
# White space

Trimming takes off the characters of the Unicode property White_Space, of which
there are 25. The zero width space is not one of them.
-/

namespace RuleText.Text

/-- The code points with the property White_Space. -/
def blankRanges : List (Nat × Nat) :=
  [(0x9, 0xD), (0x20, 0x20), (0x85, 0x85), (0xA0, 0xA0), (0x1680, 0x1680),
   (0x2000, 0x200A), (0x2028, 0x2029), (0x202F, 0x202F), (0x205F, 0x205F), (0x3000, 0x3000)]

/-- Whether the character is white space. -/
def isBlank (c : Char) : Bool :=
  withinRanges blankRanges c

/-- The text without the white space at its two ends. -/
def trim (t : Text) : Text :=
  ((t.dropWhile isBlank).reverse.dropWhile isBlank).reverse

example : isBlank ' ' = true ∧ isBlank '\u00a0' = true ∧ isBlank '\u200b' = false := by decide

end RuleText.Text
