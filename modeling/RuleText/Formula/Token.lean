import RuleText.Text.Basic

/-!
# Tokens of damage formulas

A formula is cut from the left into the longest tokens possible. Where a dice
token and a name are equally long, as for `d6`, the dice token is meant. Blanks
stand only between tokens. A character with which no token can start becomes a
token of the kind `unknown`, so that the tokens and the blanks between them are
always the whole text.

Classes of tokens are given by functions that return the longest beginning of a
text that belongs to the class, which is empty when there is none.
-/

namespace RuleText.Formula

/-- The four binary operators. -/
inductive Operator where
  | add
  | sub
  | mul
  | div
deriving DecidableEq, Repr

namespace Operator

/-- The sign of the operator. -/
def text : Operator → Text
  | add => ['+']
  | sub => ['-']
  | mul => ['*']
  | div => ['/']

end Operator

/-- The kinds of tokens. -/
inductive Kind where
  | integer
  | dice
  | name
  | reference
  | leftParen
  | rightParen
  | leftBracket
  | rightBracket
  | comma
  | plus
  | minus
  | star
  | slash
  | unknown
deriving DecidableEq, Repr

namespace Kind

/-- How messages call the kind. -/
def text : Kind → Text
  | integer => "<integer>".toList
  | dice => "<dice>".toList
  | name => "<name>".toList
  | reference => "<reference>".toList
  | leftParen => "'('".toList
  | rightParen => "')'".toList
  | leftBracket => "'['".toList
  | rightBracket => "']'".toList
  | comma => "','".toList
  | plus => "'+'".toList
  | minus => "'-'".toList
  | star => "'*'".toList
  | slash => "'/'".toList
  | unknown => "<error>".toList

/-- The operator that a token of the kind stands for. -/
def operator? : Kind → Option Operator
  | plus => some .add
  | minus => some .sub
  | star => some .mul
  | slash => some .div
  | _ => none

end Kind

/-- A token: its kind, the byte offset of its first character, and its text. -/
structure Token where
  kind : Kind
  start : Nat
  text : Text
deriving DecidableEq, Repr

namespace Token

/-- The byte offset behind the token. -/
def stop (token : Token) : Nat :=
  token.start + token.text.utf8Size

/-! ### Classes of tokens -/

/-- Blanks between tokens. -/
def isBlank (c : Char) : Bool :=
  c == ' ' || c == '\t' || c == '\r' || c == '\n'

/-- The characters with which a name can start. -/
def isNameStart (c : Char) : Bool :=
  c.isAlpha || c == '_'

/-- The characters of which a name is made. -/
def isNameChar (c : Char) : Bool :=
  c.isAlphanum || c == '_'

/-- Decimal digits. -/
def integerText (t : Text) : Text :=
  t.takeWhile Char.isDigit

/-- A letter or an underscore, then letters, digits and underscores. -/
def nameText : Text → Text
  | [] => []
  | c :: t => if isNameStart c then c :: t.takeWhile isNameChar else []

/-- An optional count, the letter `d`, and a size. -/
def diceText (t : Text) : Text :=
  match t.dropWhile Char.isDigit with
  | 'd' :: rest =>
    if integerText rest = [] then [] else integerText t ++ 'd' :: integerText rest
  | _ => []

/-- Any number of names, each after a point. -/
def dottedNames (t : Text) : Text :=
  match t with
  | '.' :: rest =>
    if nameText rest = [] then []
    else '.' :: nameText rest ++ dottedNames (rest.drop (nameText rest).length)
  | _ => []
termination_by t.length
decreasing_by
  simp only [List.length_drop, List.length_cons]
  omega

/-- An `@` and names with points between them. -/
def referenceText : Text → Text
  | '@' :: rest =>
    if nameText rest = [] then []
    else '@' :: nameText rest ++ dottedNames (rest.drop (nameText rest).length)
  | _ => []

/-- The kind of a token of one character. -/
def symbol? : Char → Option Kind
  | '(' => some .leftParen
  | ')' => some .rightParen
  | '[' => some .leftBracket
  | ']' => some .rightBracket
  | ',' => some .comma
  | '+' => some .plus
  | '-' => some .minus
  | '*' => some .star
  | '/' => some .slash
  | _ => none

/-- A token of one character, if the text starts with one. -/
def symbolText : Text → Kind × Text
  | [] => (.unknown, [])
  | c :: _ =>
    match symbol? c with
    | some kind => (kind, [c])
    | none => (.unknown, [])

/-! ### The longest token -/

/-- The longest token of each class at the front of a text; of equally long ones
an earlier class is preferred. -/
def candidates (t : Text) : List (Kind × Text) :=
  [(.integer, integerText t), (.dice, diceText t), (.name, nameText t),
    (.reference, referenceText t), symbolText t]

/-- The first of the longest candidates. -/
def longest (best : Kind × Text) : List (Kind × Text) → Kind × Text
  | [] => best
  | next :: more =>
    longest (if best.2.length < next.2.length then next else best) more

/-- Kind and text of the token at the front of the text `c :: t`. -/
def first (c : Char) (t : Text) : Kind × Text :=
  match longest (.unknown, []) (candidates (c :: t)) with
  | (_, []) => (.unknown, [c])
  | token => token

theorem first_ne_nil (c : Char) (t : Text) : (first c t).2 ≠ [] := by
  unfold first
  split
  · simp
  · rename_i h
    intro hn
    exact h _ (Prod.ext rfl hn)

/-- The tokens of a text whose first character has the byte offset `start`. -/
def ofTextFrom (start : Nat) (t : Text) : List Token :=
  match t with
  | [] => []
  | c :: t =>
    if isBlank c then ofTextFrom (start + c.utf8Size) t
    else
      let token := first c t
      ⟨token.1, start, token.2⟩ ::
        ofTextFrom (start + token.2.utf8Size) ((c :: t).drop token.2.length)
termination_by t.length
decreasing_by
  · simp only [List.length_cons]
    omega
  · have := List.length_pos_iff.mpr (first_ne_nil c t)
    simp only [List.length_drop, List.length_cons]
    omega

/-- The tokens of a formula. -/
def ofText (t : Text) : List Token :=
  ofTextFrom 0 t

end Token

end RuleText.Formula
