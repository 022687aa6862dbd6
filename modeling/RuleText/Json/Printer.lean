import RuleText.Json.Basic
import RuleText.Decimal.Layout

/-!
# Compact JSON text

A value is printed without any blanks. Inside strings only quotes, backslashes
and controls are escaped; every other character stands for itself.
-/

namespace RuleText.Json

/-- Doubles carry a point down to `0.00001` and below 10¹⁶; a positive exponent
has a plus sign. -/
def numberLayout : Decimal.Layout := ⟨-5, 15, ['+'], .toEven⟩

namespace Number

/-- The text of a number. -/
def compact : Number → Text
  | int n => Text.ofInt n
  | float x => numberLayout.write x

end Number

/-- One character inside a JSON string. -/
def escapedChar (c : Char) : Text :=
  match c with
  | '"' => "\\\"".toList
  | '\\' => "\\\\".toList
  | '\x08' => "\\b".toList
  | '\x0c' => "\\f".toList
  | '\n' => "\\n".toList
  | '\r' => "\\r".toList
  | '\t' => "\\t".toList
  | c =>
    if c.toNat < 32 then
      "\\u00".toList ++ [Nat.digitChar (c.toNat / 16), Nat.digitChar (c.toNat % 16)]
    else [c]

/-- A text as a JSON string. -/
def quoted (t : Text) : Text :=
  '"' :: t.flatMap escapedChar ++ ['"']

mutual

/-- The text of a value. -/
def compact : Json → Text
  | null => "null".toList
  | bool b => if b then "true".toList else "false".toList
  | number n => n.compact
  | string s => quoted s
  | array elements => '[' :: compactElements elements ++ [']']
  | object fields => '\x7b' :: compactFields fields ++ ['\x7d']

/-- The texts of values with commas between them. -/
def compactElements : List Json → Text
  | [] => []
  | [v] => compact v
  | v :: w :: more => compact v ++ ',' :: compactElements (w :: more)

/-- The texts of fields with commas between them. -/
def compactFields : List (Text × Json) → Text
  | [] => []
  | [(k, v)] => quoted k ++ ':' :: compact v
  | (k, v) :: f :: more => quoted k ++ ':' :: compact v ++ ',' :: compactFields (f :: more)

end

end RuleText.Json
