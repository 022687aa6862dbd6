import RuleText.Text.Basic

/-!
# Kinds of directives

The name of a directive tells what it is. Block names are taken as they are
written; the names of inline directives may be written in capitals or small
letters.
-/

namespace RuleText.Directive

/-- What a directive stands for. The inline rolls differ only in who sees the
result, so they are one kind. -/
inductive Kind where
  | localize
  | uuid
  | template
  | check
  | damage
  | roll
  | act
  | unsupported
deriving DecidableEq, Repr

namespace Kind

/-- The names of block directives. -/
def blockNames : List (Text × Kind) :=
  [("Localize".toList, localize), ("UUID".toList, uuid), ("Template".toList, template),
    ("Check".toList, check), ("Damage".toList, damage)]

/-- The names of inline directives in small letters. -/
def inlineNames : List (Text × Kind) :=
  [("r".toList, roll), ("pr".toList, roll), ("gmr".toList, roll), ("br".toList, roll),
    ("sr".toList, roll), ("act".toList, act)]

/-- The kind of a block directive. -/
def ofBlockName (name : Text) : Kind :=
  (blockNames.lookup name).getD unsupported

/-- The kind of an inline directive. -/
def ofInlineName (name : Text) : Kind :=
  (inlineNames.lookup name.lowerAscii).getD unsupported

end Kind

end RuleText.Directive
