import RuleText.Text.Basic

/-!
# Tables with texts as keys

A table is a list of keys with values, in ascending order of the keys and each key
once. Setting a key replaces its value, so of several values set for a key the
last one stays.
-/

namespace RuleText

/-- A list of keys with values. -/
abbrev Keyed (α : Type) := List (Text × α)

namespace Keyed

variable {α : Type}

/-- Sets the value of a key. A new key takes its place in the order of keys. -/
def set (key : Text) (value : α) : Keyed α → Keyed α
  | [] => [(key, value)]
  | (k, v) :: more =>
    if key = k then (key, value) :: more
    else if Text.before key k then (key, value) :: (k, v) :: more
    else (k, v) :: set key value more

/-- The value of a key. -/
def find? (key : Text) : Keyed α → Option α
  | [] => none
  | (k, v) :: more => if key = k then some v else find? key more

@[simp] theorem find?_set_self (key : Text) (value : α) (table : Keyed α) :
    find? key (set key value table) = some value := by
  induction table with
  | nil => simp [set, find?]
  | cons entry more ih =>
    obtain ⟨k, v⟩ := entry
    by_cases h : key = k
    · simp [set, find?, h]
    · by_cases hb : Text.before key k <;> simp [set, find?, h, hb, ih]

theorem find?_set_of_ne {key other : Text} (value : α) (table : Keyed α) (h : other ≠ key) :
    find? other (set key value table) = find? other table := by
  induction table with
  | nil => simp [set, find?, h]
  | cons entry more ih =>
    obtain ⟨k, v⟩ := entry
    by_cases hk : key = k
    · subst hk
      simp [set, find?, h]
    · by_cases hb : Text.before key k
      · simp [set, find?, h, hk, hb]
      · simp [set, hk, hb, find?, ih]

/-- The table of a list of keys with values, of which later ones replace earlier
ones. -/
def ofList (entries : List (Text × α)) : Keyed α :=
  entries.foldl (fun table (k, v) => set k v table) []

end Keyed

end RuleText
