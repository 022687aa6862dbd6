import RuleText.Formula.Node
import RuleText.Formula.ParseError

/-!
# Parsing formulas

The grammar, over tokens:

* formula: additions with commas between them; the last comma may stand before a
  closing parenthesis or at the end. One comma makes a tuple.
* addition: products joined by `+` and `-`, to the left.
* product: signed values joined by `*` and `/`, to the left.
* signed value: any number of `-`, then a value.
* value: an atom followed by tags in brackets, dice without a count, or the name
  `d` and an atom, in any order.
* atom: an integer, dice, a reference, a name, a call, or a formula in parentheses.
* tag: names joined by `-` without blanks, a reference, or tags in parentheses.

Each function takes the tokens that are left and gives back a shorter list. The
length of the list, and below it the level of the grammar, is what decreases.
-/

namespace RuleText.Formula

/-- Why parsing stopped, with the token at fault unless it is the end. -/
structure Fault where
  cause : ParseError.Cause
  token : Option Token

namespace Fault

/-- The error that reports a fault of the formula `t`. -/
def toError (fault : Fault) (t : Text) : ParseError :=
  match fault.token with
  | some token => ⟨fault.cause, token.start, token.stop, token.text⟩
  | none => ⟨fault.cause, t.utf8Size, t.utf8Size, []⟩

/-- The fault of tokens that do not go on with one of the expected kinds. -/
def unexpected (expected : List Kind) : List Token → Fault
  | [] => ⟨.unexpectedToken none expected, none⟩
  | token :: _ =>
    if token.kind = .unknown then ⟨.unexpectedString expected, some token⟩
    else ⟨.unexpectedToken (some token.kind) expected, some token⟩

end Fault

namespace Parser

/-- The kinds that begin an atom. -/
def atomKinds : List Kind := [.integer, .dice, .reference, .name, .leftParen]

/-- The kinds that begin a tag. -/
def tagKinds : List Kind := [.name, .reference, .leftParen]

/-- A result with the tokens left over, of which there are fewer than before. -/
abbrev Taken (ts : List Token) (α : Type) :=
  α × { rest : List Token // rest.length < ts.length }

/-- A result with the tokens left over, of which there are no more than before. -/
abbrev Followed (ts : List Token) (α : Type) :=
  α × { rest : List Token // rest.length ≤ ts.length }

/-- Whether the next token has the kind. -/
def startsWith (kind : Kind) : List Token → Bool
  | [] => false
  | token :: _ => token.kind = kind

/-- The number written by the digits of a token. -/
def amount (token : Token) (digits : Text) : Except Fault Amount :=
  match Amount.fit? (Text.digitsValue digits) with
  | some n => .ok n
  | none => .error ⟨.invalidNumber, some token⟩

/-- The tokens after one of the given kind. -/
def expect (kind : Kind) (ts : List Token) :
    Except Fault { rest : List Token // rest.length < ts.length } :=
  match ts with
  | [] => .error (Fault.unexpected [kind] [])
  | token :: rest =>
    if token.kind = kind then .ok ⟨rest, Nat.lt_succ_self _⟩
    else .error (Fault.unexpected [kind] (token :: rest))

/-- Dice with a size and perhaps a count, neither of them zero. -/
def diceLiteral (token : Token) : Except Fault Node := do
  let (count, size) := (Text.splitOnce 'd' token.text).getD ([], [])
  let count ← if count = [] then .ok 1 else amount token count
  let size ← amount token size
  if count = 0 ∨ size = 0 then .error ⟨.zeroDice, some token⟩
  return .dice count size

/-- The size in a dice token that follows a value and so has no count. -/
def diceSize (token : Token) : Except Fault Node := do
  match Text.after? ['d'] token.text with
  | some size => return .integer (← amount token size)
  | none => .error ⟨.unexpectedToken (some .dice) [.leftBracket], some token⟩

/-! ### Tags -/

/-- The further names of a hyphenated tag, of which `text` has been read up to the
byte `stop`. All its pieces have to touch. -/
def hyphenated (text : Text) (stop : Nat) (ts : List Token) : Except Fault (Followed ts Text) :=
  match ts with
  | [] => .ok (text, ⟨[], Nat.le_refl _⟩)
  | minus :: rest =>
    if minus.kind = .minus then
      match rest with
      | [] => .error (Fault.unexpected [.name] [])
      | name :: rest =>
        if name.kind = .name then
          if minus.start = stop ∧ name.start = minus.stop then do
            let (text, ⟨rest, h⟩) ← hyphenated (text ++ minus.text ++ name.text) name.stop rest
            return (text, ⟨rest, by simp only [List.length_cons]; omega⟩)
          else .error ⟨.detachedTag, some name⟩
        else .error (Fault.unexpected [.name] (name :: rest))
    else .ok (text, ⟨minus :: rest, Nat.le_refl _⟩)

mutual

/-- One tag. -/
def tag (ts : List Token) : Except Fault (Taken ts Node) :=
  match ts with
  | [] => .error (Fault.unexpected tagKinds [])
  | token :: rest =>
    match token.kind with
    | .name => do
      let (text, ⟨rest, _⟩) ← hyphenated token.text token.stop rest
      return (.name text, ⟨rest, by simp only [List.length_cons]; omega⟩)
    | .reference => .ok (.reference (token.text.drop 1), ⟨rest, Nat.lt_succ_self _⟩)
    | .leftParen => do
      let (tags, ⟨rest, _⟩) ← tagList rest
      let ⟨rest, _⟩ ← expect .rightParen rest
      return (.tuple tags, ⟨rest, by simp only [List.length_cons]; omega⟩)
    | _ => .error (Fault.unexpected tagKinds (token :: rest))
termination_by (ts.length, 0)

/-- Tags with commas between them. -/
def tagList (ts : List Token) : Except Fault (Taken ts (List Node)) := do
  let (first, ⟨rest, _⟩) ← tag ts
  let (more, ⟨rest, _⟩) ← moreTags rest
  return (first :: more, ⟨rest, by omega⟩)
termination_by (ts.length, 1)

/-- Any number of tags, each after a comma. -/
def moreTags (ts : List Token) : Except Fault (Followed ts (List Node)) :=
  match ts with
  | [] => .ok ([], ⟨[], Nat.le_refl _⟩)
  | token :: rest =>
    if token.kind = .comma then do
      let (tags, ⟨rest, _⟩) ← tagList rest
      return (tags, ⟨rest, by simp only [List.length_cons]; omega⟩)
    else .ok ([], ⟨token :: rest, Nat.le_refl _⟩)
termination_by (ts.length, 0)

end

/-! ### Formulas -/

mutual

/-- A formula, which is a tuple if it has a comma. -/
def formula (ts : List Token) : Except Fault (Taken ts Node) := do
  let (first, ⟨rest, _⟩) ← addition ts
  if startsWith .comma rest then
    let (more, ⟨rest, _⟩) ← moreItems rest
    return (.tuple (first :: more), ⟨rest, by omega⟩)
  else return (first, ⟨rest, by omega⟩)
termination_by (ts.length, 5)

/-- The further items of a tuple. A comma before a closing parenthesis or the end
is the last. -/
def moreItems (ts : List Token) : Except Fault (Followed ts (List Node)) :=
  match ts with
  | [] => .ok ([], ⟨[], Nat.le_refl _⟩)
  | token :: rest =>
    if token.kind = .comma then
      if rest = [] ∨ startsWith .rightParen rest then .ok ([], ⟨rest, Nat.le_succ _⟩)
      else do
        let (item, ⟨rest, _⟩) ← addition rest
        let (more, ⟨rest, _⟩) ← moreItems rest
        return (item :: more, ⟨rest, by simp only [List.length_cons]; omega⟩)
    else .ok ([], ⟨token :: rest, Nat.le_refl _⟩)
termination_by (ts.length, 0)

/-- Products joined by `+` and `-`. -/
def addition (ts : List Token) : Except Fault (Taken ts Node) := do
  let (left, ⟨rest, _⟩) ← product ts
  let (node, ⟨rest, _⟩) ← moreSummands left rest
  return (node, ⟨rest, by omega⟩)
termination_by (ts.length, 4)

/-- The further summands after `left`. -/
def moreSummands (left : Node) (ts : List Token) : Except Fault (Followed ts Node) :=
  match ts with
  | [] => .ok (left, ⟨[], Nat.le_refl _⟩)
  | token :: rest =>
    match token.kind with
    | .plus => do
      let (right, ⟨rest, _⟩) ← product rest
      let (node, ⟨rest, _⟩) ← moreSummands (.binary left .add right) rest
      return (node, ⟨rest, by simp only [List.length_cons]; omega⟩)
    | .minus => do
      let (right, ⟨rest, _⟩) ← product rest
      let (node, ⟨rest, _⟩) ← moreSummands (.binary left .sub right) rest
      return (node, ⟨rest, by simp only [List.length_cons]; omega⟩)
    | _ => .ok (left, ⟨token :: rest, Nat.le_refl _⟩)
termination_by (ts.length, 0)

/-- Signed values joined by `*` and `/`. -/
def product (ts : List Token) : Except Fault (Taken ts Node) := do
  let (left, ⟨rest, _⟩) ← signed ts
  let (node, ⟨rest, _⟩) ← moreFactors left rest
  return (node, ⟨rest, by omega⟩)
termination_by (ts.length, 3)

/-- The further factors and divisors after `left`. -/
def moreFactors (left : Node) (ts : List Token) : Except Fault (Followed ts Node) :=
  match ts with
  | [] => .ok (left, ⟨[], Nat.le_refl _⟩)
  | token :: rest =>
    match token.kind with
    | .star => do
      let (right, ⟨rest, _⟩) ← signed rest
      let (node, ⟨rest, _⟩) ← moreFactors (.binary left .mul right) rest
      return (node, ⟨rest, by simp only [List.length_cons]; omega⟩)
    | .slash => do
      let (right, ⟨rest, _⟩) ← signed rest
      let (node, ⟨rest, _⟩) ← moreFactors (.binary left .div right) rest
      return (node, ⟨rest, by simp only [List.length_cons]; omega⟩)
    | _ => .ok (left, ⟨token :: rest, Nat.le_refl _⟩)
termination_by (ts.length, 0)

/-- A value with any number of minus signs in front. -/
def signed (ts : List Token) : Except Fault (Taken ts Node) :=
  match ts with
  | [] => value []
  | token :: rest =>
    if token.kind = .minus then do
      let (node, ⟨rest, _⟩) ← signed rest
      return (.negate node, ⟨rest, by simp only [List.length_cons]; omega⟩)
    else value (token :: rest)
termination_by (ts.length, 2)

/-- An atom with what follows it. -/
def value (ts : List Token) : Except Fault (Taken ts Node) := do
  let (node, ⟨rest, _⟩) ← atom ts
  let (node, ⟨rest, _⟩) ← suffixes node rest
  return (node, ⟨rest, by omega⟩)
termination_by (ts.length, 1)

/-- The tags and dice sizes that follow `node`. -/
def suffixes (node : Node) (ts : List Token) : Except Fault (Followed ts Node) :=
  match ts with
  | [] => .ok (node, ⟨[], Nat.le_refl _⟩)
  | token :: rest =>
    match token.kind with
    | .leftBracket => do
      let (tags, ⟨rest, _⟩) ← tagList rest
      let ⟨rest, _⟩ ← expect .rightBracket rest
      let (node, ⟨rest, _⟩) ← suffixes (.tagged node tags) rest
      return (node, ⟨rest, by simp only [List.length_cons]; omega⟩)
    | .dice => do
      let size ← diceSize token
      let (node, ⟨rest, _⟩) ← suffixes (.diceCall node size) rest
      return (node, ⟨rest, by simp only [List.length_cons]; omega⟩)
    | .name =>
      if token.text = ['d'] then do
        let (size, ⟨rest, _⟩) ← atom rest
        let (node, ⟨rest, _⟩) ← suffixes (.diceCall node size) rest
        return (node, ⟨rest, by simp only [List.length_cons]; omega⟩)
      else .error ⟨.unexpectedToken (some .name) [.leftBracket], some token⟩
    | _ => .ok (node, ⟨token :: rest, Nat.le_refl _⟩)
termination_by (ts.length, 0)

/-- An atom. A name directly before an opening parenthesis is a call. -/
def atom (ts : List Token) : Except Fault (Taken ts Node) :=
  match ts with
  | [] => .error (Fault.unexpected atomKinds [])
  | token :: rest =>
    match token.kind with
    | .integer => do
      let n ← amount token token.text
      return (.integer n, ⟨rest, Nat.lt_succ_self _⟩)
    | .dice => do
      let node ← diceLiteral token
      return (node, ⟨rest, Nat.lt_succ_self _⟩)
    | .reference => .ok (.reference (token.text.drop 1), ⟨rest, Nat.lt_succ_self _⟩)
    | .name =>
      match rest with
      | [] => .ok (.name token.text, ⟨[], Nat.lt_succ_self _⟩)
      | paren :: rest =>
        if paren.kind = .leftParen then do
          let (args, ⟨rest, _⟩) ← arguments rest
          return (.call token.text args, ⟨rest, by simp only [List.length_cons]; omega⟩)
        else .ok (.name token.text, ⟨paren :: rest, Nat.lt_succ_self _⟩)
    | .leftParen => do
      let (node, ⟨rest, _⟩) ← formula rest
      let ⟨rest, _⟩ ← expect .rightParen rest
      return (.parens node, ⟨rest, by simp only [List.length_cons]; omega⟩)
    | _ => .error (Fault.unexpected atomKinds (token :: rest))
termination_by (ts.length, 0)

/-- The arguments of a call up to its closing parenthesis. -/
def arguments (ts : List Token) : Except Fault (Taken ts (List Node)) := do
  if startsWith .rightParen ts then
    let ⟨rest, _⟩ ← expect .rightParen ts
    return ([], ⟨rest, by omega⟩)
  else
    let (first, ⟨rest, _⟩) ← addition ts
    let (more, ⟨rest, _⟩) ← moreArguments rest
    let ⟨rest, _⟩ ← expect .rightParen rest
    return (first :: more, ⟨rest, by omega⟩)
termination_by (ts.length, 5)

/-- Any number of arguments, each after a comma. -/
def moreArguments (ts : List Token) : Except Fault (Followed ts (List Node)) :=
  match ts with
  | [] => .ok ([], ⟨[], Nat.le_refl _⟩)
  | token :: rest =>
    if token.kind = .comma then do
      let (arg, ⟨rest, _⟩) ← addition rest
      let (more, ⟨rest, _⟩) ← moreArguments rest
      return (arg :: more, ⟨rest, by simp only [List.length_cons]; omega⟩)
    else .ok ([], ⟨token :: rest, Nat.le_refl _⟩)
termination_by (ts.length, 0)

end

/-- The tree of a list of tokens that is a formula as a whole. -/
def ofTokens (ts : List Token) : Except Fault Node := do
  let (node, ⟨rest, _⟩) ← formula ts
  match rest with
  | [] => return node
  | token :: rest => .error (Fault.unexpected [] (token :: rest))

end Parser

/-- The tree of a formula, or the first error in it. -/
def parse (t : Text) : Except ParseError Node :=
  match Parser.ofTokens (Token.ofText t) with
  | .ok node => .ok node
  | .error fault => .error (fault.toError t)

end RuleText.Formula
