import RuleText.Json.Reader

/-!
# Translation tables

A table of translations is written as nested JSON objects with texts at their
leaves. The key of a leaf is its path of object keys, joined with points; all
other values are left out. Where two leaves have the same key, the later one in
the order of walking through the objects counts.
-/

namespace RuleText

namespace Json

mutual

/-- The texts that a value holds inside objects, each with its path of keys, in the
order of walking through it. A text holds itself under the empty path. -/
def leaves : Json → List (List Text × Text)
  | string s => [([], s)]
  | object fields => leavesOfFields fields
  | _ => []

/-- The texts that the values of fields hold. -/
def leavesOfFields : List (Text × Json) → List (List Text × Text)
  | [] => []
  | (key, value) :: more =>
    ((leaves value).map fun (path, s) => (key :: path, s)) ++ leavesOfFields more

end

end Json

/-- Texts by their keys. -/
structure Translations where
  entries : Keyed Text

namespace Translations

/-- A table without entries. -/
def empty : Translations := ⟨[]⟩

/-- The table of a JSON object; any other value gives an empty one. -/
def ofJson : Json → Translations
  | .object fields =>
    ⟨Keyed.ofList ((Json.leavesOfFields fields).map fun (path, s) => (Text.joined ['.'] path, s))⟩
  | _ => empty

/-- The table that a JSON text writes, if it is one. -/
def parse? (t : Text) : Option Translations :=
  (Json.parse? t).map ofJson

/-- Sets the translation of a key. -/
def insert (table : Translations) (key value : Text) : Translations :=
  ⟨Keyed.set key value table.entries⟩

/-- The number of keys. -/
def size (table : Translations) : Nat :=
  table.entries.length

/-- The translation of a key; a key that the table does not hold stands for itself. -/
def translate (table : Translations) (key : Text) : Text :=
  (Keyed.find? key table.entries).getD key

@[simp] theorem translate_empty (key : Text) : empty.translate key = key := rfl

@[simp] theorem translate_insert_self (table : Translations) (key value : Text) :
    (table.insert key value).translate key = value := by
  simp [insert, translate]

theorem translate_insert_of_ne (table : Translations) {key other : Text} (value : Text)
    (h : other ≠ key) : (table.insert key value).translate other = table.translate other := by
  simp [insert, translate, Keyed.find?_set_of_ne value table.entries h]

end Translations

end RuleText
