import RuleText.Text.Shown

/-!
# Quoted text

Messages show a text between double quotes. A quote and a backslash get a
backslash in front, four controls have short escapes, and every other character
that is not shown as itself is written by its code point in hexadecimal.
-/

namespace RuleText.Text

/-- One character inside quotes. -/
def quotedChar (c : Char) : Text :=
  match c with
  | '\x00' => "\\0".toList
  | '\t' => "\\t".toList
  | '\r' => "\\r".toList
  | '\n' => "\\n".toList
  | '"' => "\\\"".toList
  | '\\' => "\\\\".toList
  | c =>
    if isShown c then [c]
    else "\\u\x7b".toList ++ Nat.toDigits 16 c.toNat ++ ['\x7d']

/-- A text between double quotes. -/
def quoted (t : Text) : Text :=
  '"' :: t.flatMap quotedChar ++ ['"']

/-- A list of quoted texts between square brackets. -/
def quotedList (parts : List Text) : Text :=
  '[' :: joined ", ".toList (parts.map quoted) ++ [']']

example : quoted "a\"b\n\x1b".toList = "\"a\\\"b\\n\\u\x7b1b\x7d\"".toList := by decide +kernel

end RuleText.Text
