import RuleText.Formula.Node

/-!
# The grammar of formulas

The grammar is context-free. A derivation gives a list of tokens a tree; operators
and what follows a value associate to the left. Where a grammar has iterations this
one has left-recursive rules, or right-recursive rules where a list is meant, so
that every rule builds its part of the tree.

That a name before an opening parenthesis is a call needs no rule of its own: no
phrase starts with a parenthesis directly behind an atom.
-/

namespace RuleText.Formula

/-- The symbols of the grammar. -/
inductive Symbol where
  | formula
  | items
  | addition
  | product
  | signed
  | value
  | atom
  | tags
  | tag
deriving DecidableEq, Repr

/-- What a phrase stands for: items and tags are lists of trees, all else is a tree. -/
@[reducible] def Symbol.Tree : Symbol → Type
  | items | tags => List Node
  | formula | addition | product | signed | value | atom | tag => Node

/-- The digits write the number. A number that does not fit is not written by any
digits. -/
def Writes (digits : Text) (n : Amount) : Prop :=
  n.toInt = Text.digitsValue digits

/-- The digits write the count of dice, which is one when there are none. -/
def WritesCount (counting : Text) (count : Amount) : Prop :=
  if counting = [] then count = 1 else Writes counting count

/-- The text of dice: a count, the letter `d` and a size. Neither number is zero. -/
inductive WritesDice : Text → Amount → Amount → Prop
  | intro {counting digits : Text} {count size : Amount} : 'd' ∉ counting →
      WritesCount counting count → Writes digits size → count ≠ 0 → size ≠ 0 →
      WritesDice (counting ++ 'd' :: digits) count size

/-- The further pieces of a name with hyphens that goes up to the byte `stop`: a `-`
and a name each time, with nothing between the pieces. -/
inductive Hyphenated : (stop : Nat) → List Token → Prop
  | nil (stop : Nat) : Hyphenated stop []
  | cons {minus name : Token} {pieces : List Token} : minus.kind = .minus → name.kind = .name →
      name.start = minus.stop → Hyphenated name.stop pieces →
      Hyphenated minus.start (minus :: name :: pieces)

/-- The tokens are a phrase of the symbol with the tree. -/
inductive Derives : (s : Symbol) → List Token → s.Tree → Prop
  /-- A formula without a comma. -/
  | single {ts : List Token} {node : Node} : Derives .addition ts node → Derives .formula ts node
  | tuple {ts : List Token} {items : List Node} : Derives .items ts items → 2 ≤ items.length →
      Derives .formula ts (.tuple items)
  /-- A formula whose last comma has no item behind it. -/
  | trailing {ts : List Token} {items : List Node} {comma : Token} : Derives .items ts items →
      comma.kind = .comma → Derives .formula (ts ++ [comma]) (.tuple items)
  | item {ts : List Token} {node : Node} : Derives .addition ts node → Derives .items ts [node]
  | moreItems {ts us : List Token} {node : Node} {items : List Node} {comma : Token} :
      Derives .addition ts node → comma.kind = .comma → Derives .items us items →
      Derives .items (ts ++ comma :: us) (node :: items)
  | summand {ts : List Token} {node : Node} : Derives .product ts node → Derives .addition ts node
  | binarySum {ts us : List Token} {left right : Node} {sign : Token} {op : Operator} :
      Derives .addition ts left → sign.kind.operator? = some op → op = .add ∨ op = .sub →
      Derives .product us right → Derives .addition (ts ++ sign :: us) (.binary left op right)
  | factor {ts : List Token} {node : Node} : Derives .signed ts node → Derives .product ts node
  | binaryProduct {ts us : List Token} {left right : Node} {sign : Token} {op : Operator} :
      Derives .product ts left → sign.kind.operator? = some op → op = .mul ∨ op = .div →
      Derives .signed us right → Derives .product (ts ++ sign :: us) (.binary left op right)
  | negate {ts : List Token} {node : Node} {minus : Token} : minus.kind = .minus →
      Derives .signed ts node → Derives .signed (minus :: ts) (.negate node)
  | unsigned {ts : List Token} {node : Node} : Derives .value ts node → Derives .signed ts node
  | bare {ts : List Token} {node : Node} : Derives .atom ts node → Derives .value ts node
  | tagged {ts us : List Token} {node : Node} {tags : List Node} {opening closing : Token} :
      Derives .value ts node → opening.kind = .leftBracket → Derives .tags us tags →
      closing.kind = .rightBracket →
      Derives .value (ts ++ opening :: (us ++ [closing])) (.tagged node tags)
  /-- A value and dice without a count. -/
  | sized {ts : List Token} {node : Node} {dice : Token} {digits : Text} {size : Amount} :
      Derives .value ts node → dice.kind = .dice → dice.text = 'd' :: digits →
      Writes digits size → Derives .value (ts ++ [dice]) (.diceCall node (.integer size))
  /-- A value, the name `d` and an atom. -/
  | sizedBy {ts us : List Token} {node size : Node} {d : Token} : Derives .value ts node →
      d.kind = .name → d.text = ['d'] → Derives .atom us size →
      Derives .value (ts ++ d :: us) (.diceCall node size)
  | integer {token : Token} {n : Amount} : token.kind = .integer → Writes token.text n →
      Derives .atom [token] (.integer n)
  | dice {token : Token} {count size : Amount} : token.kind = .dice →
      WritesDice token.text count size → Derives .atom [token] (.dice count size)
  /-- A reference, without its `@`. -/
  | reference {token : Token} : token.kind = .reference →
      Derives .atom [token] (.reference (token.text.drop 1))
  | name {token : Token} : token.kind = .name → Derives .atom [token] (.name token.text)
  | callEmpty {name opening closing : Token} : name.kind = .name → opening.kind = .leftParen →
      closing.kind = .rightParen → Derives .atom [name, opening, closing] (.call name.text [])
  | call {ts : List Token} {args : List Node} {name opening closing : Token} : name.kind = .name →
      opening.kind = .leftParen → Derives .items ts args → closing.kind = .rightParen →
      Derives .atom (name :: opening :: (ts ++ [closing])) (.call name.text args)
  | parens {ts : List Token} {node : Node} {opening closing : Token} : opening.kind = .leftParen →
      Derives .formula ts node → closing.kind = .rightParen →
      Derives .atom (opening :: (ts ++ [closing])) (.parens node)
  | oneTag {ts : List Token} {tag : Node} : Derives .tag ts tag → Derives .tags ts [tag]
  | moreTags {ts us : List Token} {tag : Node} {tags : List Node} {comma : Token} :
      Derives .tag ts tag → comma.kind = .comma → Derives .tags us tags →
      Derives .tags (ts ++ comma :: us) (tag :: tags)
  /-- A name with hyphens, which is one name. -/
  | tagName {first : Token} {pieces : List Token} : first.kind = .name →
      Hyphenated first.stop pieces →
      Derives .tag (first :: pieces) (.name ((first :: pieces).flatMap Token.text))
  | tagReference {token : Token} : token.kind = .reference →
      Derives .tag [token] (.reference (token.text.drop 1))
  | tagGroup {ts : List Token} {tags : List Node} {opening closing : Token} :
      opening.kind = .leftParen → Derives .tags ts tags → closing.kind = .rightParen →
      Derives .tag (opening :: (ts ++ [closing])) (.tuple tags)

theorem Derives.product_of_value {ts : List Token} {node : Node} (h : Derives .value ts node) :
    Derives .product ts node :=
  .factor (.unsigned h)

theorem Derives.addition_of_value {ts : List Token} {node : Node} (h : Derives .value ts node) :
    Derives .addition ts node :=
  .summand h.product_of_value

/-- Dice without a count are one die. -/
theorem writesDice_one {digits : Text} {size : Amount} (writes : Writes digits size)
    (nonzero : size ≠ 0) : WritesDice ('d' :: digits) 1 size := by
  have counting : WritesCount [] 1 := by
    rw [WritesCount, if_pos rfl]
  have sides : WritesDice ([] ++ 'd' :: digits) 1 size :=
    .intro List.not_mem_nil counting writes (by decide) nonzero
  exact sides

end RuleText.Formula
