import RuleText.Json.Token

/-!
# Reading a JSON value

The tokens are read one after the other, with a stack of the arrays and objects
that are still open. Each token either leads to a new state or is refused. The
stack has a limit, so that no text nests arbitrarily deep.

Of several fields with the same key the last one counts.
-/

namespace RuleText.Json

/-- An array or object that is still open, with what it holds so far. The members
of an array are kept with the last one first. -/
inductive Frame where
  | array (elements : List Json)
  | object (fields : List (Text × Json)) (key : Text)

/-- What has been read, by what may come next. -/
inductive Reader where
  /-- A value must come; directly after an opening bracket the array may also end. -/
  | value (opened : Bool) (stack : List Frame)
  /-- A key must come; directly after an opening brace the object may also end. -/
  | key (opened : Bool) (fields : List (Text × Json)) (stack : List Frame)
  /-- The colon after a key must come. -/
  | colon (stack : List Frame)
  /-- A value is complete inside the open frames. -/
  | done (value : Json) (stack : List Frame)

namespace Reader

/-- The state after one token, or none if the token cannot come here. At most
`limit` frames are open at a time. -/
def step (limit : Nat) : Reader → Token → Option Reader
  | value _ stack, .null => some (done .null stack)
  | value _ stack, .bool b => some (done (.bool b) stack)
  | value _ stack, .number n => some (done (.number n) stack)
  | value _ stack, .string s => some (done (.string s) stack)
  | value _ stack, .openBracket =>
    if stack.length < limit then some (value true (.array [] :: stack)) else none
  | value _ stack, .openBrace =>
    if stack.length < limit then some (key true [] stack) else none
  | value true (.array _ :: stack), .closeBracket => some (done (.array []) stack)
  | key _ fields stack, .string k => some (colon (.object fields k :: stack))
  | key true _ stack, .closeBrace => some (done (.object []) stack)
  | colon stack, .colon => some (value false stack)
  | done v (.array vs :: stack), .comma => some (value false (.array (v :: vs) :: stack))
  | done v (.array vs :: stack), .closeBracket => some (done (.array (v :: vs).reverse) stack)
  | done v (.object fields k :: stack), .comma => some (key false (Keyed.set k v fields) stack)
  | done v (.object fields k :: stack), .closeBrace =>
    some (done (.object (Keyed.set k v fields)) stack)
  | _, _ => none

end Reader

/-- The value that a list of tokens writes. -/
def ofTokens? (limit : Nat) (tokens : List Token) : Option Json :=
  match tokens.foldlM (Reader.step limit) (.value false []) with
  | some (.done v []) => some v
  | _ => none

/-- Values nest at most 127 levels deep. -/
def depthLimit : Nat := 127

/-- The value that a text writes. -/
def parse? (t : Text) : Option Json :=
  ofTokens? depthLimit (Token.ofText t)

end RuleText.Json
