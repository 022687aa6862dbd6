import RuleText.Json.Basic
import RuleText.Decimal.Binary

/-!
# The tokens of a JSON text

A text is cut into marks, literals, numbers and strings. The first piece that is
none of these becomes the token `invalid`, after which nothing is read, so that
a reader of the tokens meets problems in the order of the text.

A number without point and exponent is an integer when it lies from −2⁶³ up to
but not including 2⁶⁴. Any other number is a double: as many leading digits as
fit 64 bits are taken as a whole number, and that is multiplied or divided by a
power of ten.
-/

namespace RuleText.Json

/-- A token of a JSON text. -/
inductive Token where
  | openBrace
  | closeBrace
  | openBracket
  | closeBracket
  | comma
  | colon
  | null
  | bool (value : Bool)
  | number (value : Number)
  | string (value : Text)
  | invalid

namespace Token

/-- Blanks between tokens. -/
def isBlank (c : Char) : Bool :=
  c == ' ' || c == '\t' || c == '\n' || c == '\r'

/-! ### Strings -/

/-- The value of a hexadecimal digit. -/
def hexDigit? (c : Char) : Option Nat :=
  if c.isDigit then some (c.toNat - '0'.toNat)
  else if 'a' ≤ c ∧ c ≤ 'f' then some (c.toNat - 'a'.toNat + 10)
  else if 'A' ≤ c ∧ c ≤ 'F' then some (c.toNat - 'A'.toNat + 10)
  else none

/-- The value of the four hexadecimal digits at the front, with the rest. -/
def hexUnit? : Text → Option (Nat × Text)
  | a :: b :: c :: d :: t => do
    let a ← hexDigit? a
    let b ← hexDigit? b
    let c ← hexDigit? c
    let d ← hexDigit? d
    return (((a * 16 + b) * 16 + c) * 16 + d, t)
  | _ => none

theorem length_of_hexUnit? {t rest : Text} {n : Nat} (h : hexUnit? t = some (n, rest)) :
    rest.length < t.length := by
  unfold hexUnit? at h
  split at h
  · simp [Option.bind_eq_some_iff] at h
    obtain ⟨_, _, _, _, _, _, _, _, _, rfl⟩ := h
    simp
    omega
  · simp at h

/-- The character that the escape after a backslash stands for, with the rest. A
code point above U+FFFF is written as two units, which must stand together. -/
def escape? : Text → Option (Char × Text)
  | '"' :: t => some ('"', t)
  | '\\' :: t => some ('\\', t)
  | '/' :: t => some ('/', t)
  | 'b' :: t => some ('\x08', t)
  | 'f' :: t => some ('\x0c', t)
  | 'n' :: t => some ('\n', t)
  | 'r' :: t => some ('\r', t)
  | 't' :: t => some ('\t', t)
  | 'u' :: t =>
    match hexUnit? t with
    | none => none
    | some (first, rest) =>
      if first < 0xD800 ∨ 0xDFFF < first then some (Char.ofNat first, rest)
      else if 0xDC00 ≤ first then none
      else
        match rest with
        | '\\' :: 'u' :: more =>
          match hexUnit? more with
          | none => none
          | some (second, rest) =>
            if 0xDC00 ≤ second ∧ second ≤ 0xDFFF then
              some (Char.ofNat (0x10000 + (first - 0xD800) * 0x400 + (second - 0xDC00)), rest)
            else none
        | _ => none
  | _ => none

theorem length_of_escape? {t rest : Text} {c : Char} (h : escape? t = some (c, rest)) :
    rest.length < t.length := by
  unfold escape? at h
  split at h
  case h_9 t =>
    split at h
    · simp at h
    · rename_i first r hu
      have := length_of_hexUnit? hu
      split at h
      · simp at h
        simp [← h.2]
        omega
      · split at h
        · simp at h
        · split at h
          · split at h
            · simp at h
            · rename_i hv
              have := length_of_hexUnit? hv
              split at h
              · simp at h
                simp [← h.2] at *
                omega
              · simp at h
          · simp at h
  case h_10 => simp at h
  all_goals
    simp at h
    simp [← h.2]

/-- The string whose opening quote has been read, with the rest. -/
def stringBody? (t : Text) : Option (Text × Text) :=
  match t with
  | [] => none
  | c :: t =>
    if c = '"' then some ([], t)
    else if c = '\\' then
      match _ : escape? t with
      | none => none
      | some (d, rest) => (stringBody? rest).map fun (s, rest) => (d :: s, rest)
    else if c.toNat < 32 then none
    else (stringBody? t).map fun (s, rest) => (c :: s, rest)
termination_by t.length
decreasing_by
  · have := length_of_escape? ‹_›
    simp only [List.length_cons]
    omega
  · simp only [List.length_cons]
    omega

theorem length_of_stringBody? {t s rest : Text} (h : stringBody? t = some (s, rest)) :
    rest.length < t.length := by
  fun_induction stringBody? t generalizing s rest with
  | case1 => simp at h
  | case2 => simp at h; simp [h.2]
  | case3 => simp at h
  | case4 _ _ _ hc _ ih =>
    simp at h
    obtain ⟨_, h, _⟩ := h
    have := length_of_escape? hc
    have := ih h
    simp
    omega
  | case5 => simp at h
  | case6 _ _ _ _ _ ih =>
    simp at h
    obtain ⟨_, h, _⟩ := h
    have := ih h
    simp
    omega

/-! ### Numbers -/

/-- Appends digits to a number while the result fits 64 bits, and counts the
digits that are left over. -/
def appendDigits (n : Nat) : Text → Nat × Nat
  | [] => (n, 0)
  | c :: digits =>
    let next := 10 * n + (c.toNat - '0'.toNat)
    if next < Amount.unsignedLimit then appendDigits next digits else (n, digits.length + 1)

/-- Divides by 10³⁰⁸ as often as needed to bring the exponent into the range of
the powers of ten that a double can hold. Three times are enough to reach zero. -/
def scaledDown : Nat → Float → Nat → Float
  | 0, x, _ => x
  | tries + 1, x, power =>
    if power ≤ 308 then x / Float.ofScientific 1 false power
    else scaledDown tries (x / 1e308) (power - 308)

/-- `n · 10^exponent` as a double, unless it is too large for one. -/
def scaled? (n : Nat) (exponent : Int) : Option Float :=
  let x := Float.ofNat n
  if n = 0 then some 0
  else if exponent < 0 then some (scaledDown 4 x (-exponent).toNat)
  else if 308 < exponent then none
  else
    let y := x * Float.ofScientific 1 false exponent.toNat
    match Decimal.Binary.ofFloat y with
    | .infinite _ => none
    | _ => some y

/-- The value of a number from its sign and digits; a missing part is empty. -/
def numberValue? (negative : Bool) (whole fraction : Text) (exponent : Option Int) :
    Option Number :=
  let (n, dropped) := appendDigits 0 whole
  if fraction = [] ∧ exponent = none ∧ dropped = 0 then
    if !negative then some (.int n)
    else if 0 < n ∧ Amount.least ≤ -n then some (.int (-n))
    else some (.float (-Float.ofNat n))
  else
    let (m, unused) := appendDigits n fraction
    let power : Int := dropped - (fraction.length - unused : Nat) + exponent.getD 0
    (scaled? m power).map fun x => .float (if negative then -x else x)

/-- The digits at the front of a text, with the rest; none if there is no digit. -/
def digits? (t : Text) : Option (Text × Text) :=
  if t.takeWhile Char.isDigit = [] then none
  else some (t.takeWhile Char.isDigit, t.dropWhile Char.isDigit)

theorem length_of_digits? {t digits rest : Text} (h : digits? t = some (digits, rest)) :
    rest.length < t.length := by
  by_cases hd : t.takeWhile Char.isDigit = []
  · simp [digits?, hd] at h
  · simp [digits?, hd] at h
    have hl : (t.takeWhile Char.isDigit ++ t.dropWhile Char.isDigit).length = t.length := by
      rw [List.takeWhile_append_dropWhile]
    have := List.length_pos_iff.mpr hd
    rw [List.length_append, h.2] at hl
    omega

/-- The exponent after its mark, with the rest. -/
def exponent? : Text → Option (Int × Text)
  | '-' :: t => (digits? t).map fun (digits, rest) => (-(Text.digitsValue digits : Int), rest)
  | '+' :: t => (digits? t).map fun (digits, rest) => ((Text.digitsValue digits : Int), rest)
  | t => (digits? t).map fun (digits, rest) => ((Text.digitsValue digits : Int), rest)

theorem length_of_exponent? {t rest : Text} {n : Int} (h : exponent? t = some (n, rest)) :
    rest.length < t.length := by
  unfold exponent? at h
  split at h <;>
  · simp at h
    obtain ⟨_, h, _⟩ := h
    have := length_of_digits? h
    simp
    try omega

/-- The point and the digits after it, if there is a point, with the rest. -/
def fraction? : Text → Option (Text × Text)
  | '.' :: t => digits? t
  | t => some ([], t)

theorem length_of_fraction? {t digits rest : Text} (h : fraction? t = some (digits, rest)) :
    rest.length ≤ t.length := by
  unfold fraction? at h
  split at h
  · have := length_of_digits? h
    simp
    omega
  · simp at h
    simp [h.2]

/-- The mark of an exponent and the exponent, if there is such a mark, with the
rest. -/
def power? : Text → Option (Option Int × Text)
  | 'e' :: t => (exponent? t).map fun (n, rest) => (some n, rest)
  | 'E' :: t => (exponent? t).map fun (n, rest) => (some n, rest)
  | t => some (none, t)

theorem length_of_power? {t rest : Text} {n : Option Int} (h : power? t = some (n, rest)) :
    rest.length ≤ t.length := by
  unfold power? at h
  split at h
  · simp at h
    obtain ⟨_, h, _⟩ := h
    have := length_of_exponent? h
    simp
    omega
  · simp at h
    obtain ⟨_, h, _⟩ := h
    have := length_of_exponent? h
    simp
    omega
  · simp at h
    simp [h.2]

/-- The number at the front of a text, after its sign, with the rest. No digit
follows a zero that begins the whole part. -/
def number? (negative : Bool) (t : Text) : Option (Number × Text) :=
  match digits? t with
  | none => none
  | some (whole, rest) =>
    if whole.head? = some '0' ∧ 1 < whole.length then none
    else
      match fraction? rest with
      | none => none
      | some (fraction, rest) =>
        match power? rest with
        | none => none
        | some (exponent, rest) =>
          (numberValue? negative whole fraction exponent).map fun n => (n, rest)

theorem length_of_number? {negative : Bool} {t rest : Text} {n : Number}
    (h : number? negative t = some (n, rest)) : rest.length < t.length := by
  unfold number? at h
  split at h
  · simp at h
  · rename_i hw
    split at h
    · simp at h
    · split at h
      · simp at h
      · rename_i hf
        split at h
        · simp at h
        · rename_i he
          simp at h
          have := length_of_digits? hw
          have := length_of_fraction? hf
          have := length_of_power? he
          obtain ⟨_, _, _, rfl⟩ := h
          omega

/-! ### Cutting a text into tokens -/

/-- The token at the front of a text, which is not a blank, with the rest. -/
def next? : Text → Option (Token × Text)
  | '\x7b' :: t => some (openBrace, t)
  | '\x7d' :: t => some (closeBrace, t)
  | '[' :: t => some (openBracket, t)
  | ']' :: t => some (closeBracket, t)
  | ',' :: t => some (comma, t)
  | ':' :: t => some (colon, t)
  | 'n' :: 'u' :: 'l' :: 'l' :: t => some (null, t)
  | 't' :: 'r' :: 'u' :: 'e' :: t => some (bool true, t)
  | 'f' :: 'a' :: 'l' :: 's' :: 'e' :: t => some (bool false, t)
  | '"' :: t => (stringBody? t).map fun (s, rest) => (string s, rest)
  | '-' :: t => (number? true t).map fun (n, rest) => (number n, rest)
  | t => (number? false t).map fun (n, rest) => (number n, rest)

theorem length_of_next? {t rest : Text} {token : Token} (h : next? t = some (token, rest)) :
    rest.length < t.length := by
  unfold next? at h
  split at h
  case h_10 =>
    simp at h
    obtain ⟨_, h, _⟩ := h
    have := length_of_stringBody? h
    simp
    omega
  case h_11 =>
    simp at h
    obtain ⟨_, h, _⟩ := h
    have := length_of_number? h
    simp
    omega
  case h_12 =>
    simp at h
    obtain ⟨_, h, _⟩ := h
    exact length_of_number? h
  all_goals
    simp at h
    simp [← h.2]
    try omega

/-- The tokens of a text. -/
def ofText (t : Text) : List Token :=
  match t with
  | [] => []
  | c :: cs =>
    if isBlank c then ofText cs
    else
      match _ : next? (c :: cs) with
      | none => [invalid]
      | some (token, rest) => token :: ofText rest
termination_by t.length
decreasing_by
  · simp only [List.length_cons]
    omega
  · exact length_of_next? ‹_›

end Token

end RuleText.Json
