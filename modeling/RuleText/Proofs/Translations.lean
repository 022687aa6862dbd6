import Mathlib.Data.Set.Card
import RuleText.Proofs.Json.Ordered
import RuleText.Translations

/-!
# The entries of a translation table

The table of a JSON object has an entry for each key to which the paths of texts are joined,
and nothing else. Two paths may be joined to the same key, as a key of an object may hold a
point or be empty. The text that counts then is the one that comes last in the walk through
the objects, which is the one with the greatest path: the walk goes through the keys of each
object in ascending order.

The texts are described by looking up the keys of a path one after the other, not by the walk.
What is said of a value whose keys ascend holds of each table that is read from a text
(`entries_of_parse?`).
-/

namespace RuleText

namespace Json

variable {value : Json} {fields : List (Text × Json)} {path : List Text} {s : Text}

/-! ### The walk -/

theorem leavesOfFields_eq :
    leavesOfFields fields = fields.flatMap fun (key, value) =>
      (leaves value).map fun (path, s) => (key :: path, s) := by
  induction fields with
  | nil => rfl
  | cons field more ih => rw [leavesOfFields, List.flatMap_cons, ih]

theorem mem_leavesOfFields : (path, s) ∈ leavesOfFields fields ↔
    ∃ key value rest, (key, value) ∈ fields ∧ (rest, s) ∈ leaves value ∧ path = key :: rest := by
  rw [leavesOfFields_eq, List.mem_flatMap]
  constructor
  · rintro ⟨⟨key, value⟩, field, mem⟩
    obtain ⟨⟨rest, s'⟩, leaf, eq⟩ := List.mem_map.mp mem
    cases eq
    exact ⟨key, value, rest, field, leaf, rfl⟩
  · rintro ⟨key, value, rest, field, leaf, rfl⟩
    exact ⟨(key, value), field, List.mem_map_of_mem leaf⟩

/-- The walk meets the texts that can be looked up, and no others. -/
theorem Ordered.mem_leaves (h : value.Ordered) :
    (path, s) ∈ leaves value ↔ at? path value = some (.string s) := by
  induction h generalizing path with
  | string text =>
    cases path with
    | nil => simp [leaves, at?, eq_comm]
    | cons key rest => simp [leaves, at?]
  | @object fields ascending _ ih =>
    rw [leaves, mem_leavesOfFields]
    cases path with
    | nil => simp [at?]
    | cons key rest =>
      rw [at?, Option.bind_eq_some_iff]
      constructor
      · rintro ⟨_, inner, _, field, leaf, ⟨⟩⟩
        exact ⟨inner, (Keyed.mem_iff_find? ascending).mp field, (ih _ field).mp leaf⟩
      · rintro ⟨inner, found, leaf⟩
        have field := (Keyed.mem_iff_find? ascending).mpr found
        exact ⟨key, inner, rest, field, (ih _ field).mpr leaf, rfl⟩
  | null | bool | number | array => cases path <;> simp [leaves, at?]

/-- The walk meets smaller paths first. -/
theorem Ordered.pairwise_leaves (h : value.Ordered) :
    (leaves value).Pairwise fun a b => a.1 < b.1 := by
  induction h with
  | @object fields ascending _ ih =>
    rw [leaves, leavesOfFields_eq, List.pairwise_flatMap]
    constructor
    · rintro field mem
      rw [List.pairwise_map]
      exact (ih field mem).imp fun less => List.Lex.cons less
    · refine (List.pairwise_map.mp ascending).imp fun {a b} less => ?_
      intro x first y second
      obtain ⟨_, -, rfl⟩ := List.mem_map.mp first
      obtain ⟨_, -, rfl⟩ := List.mem_map.mp second
      exact List.Lex.rel less
  | string text => exact List.pairwise_singleton _ _
  | null | bool | number | array => exact List.Pairwise.nil

/-- A text inside objects, under a path of keys. -/
def Leaf (value : Json) (path : List Text) (s : Text) : Prop :=
  path ≠ [] ∧ at? path value = some (.string s)

/-- A text whose path is joined to the key, and after which no other such text comes. -/
structure LastLeaf (value : Json) (key : Text) (path : List Text) (s : Text) : Prop where
  leaf : value.Leaf path s
  joined : Text.joined ['.'] path = key
  last : ∀ path' s', value.Leaf path' s' → Text.joined ['.'] path' = key →
    path'.map Text.bytes ≤ path.map Text.bytes

theorem leaf_object :
    (object fields).Leaf path s ↔ at? path (object fields) = some (.string s) := by
  refine and_iff_right_of_imp ?_
  rintro found rfl
  cases found

theorem Leaf.exists_object (h : value.Leaf path s) : ∃ fields, value = object fields := by
  obtain ⟨inside, found⟩ := h
  cases path with
  | nil => exact absurd rfl inside
  | cons key rest =>
    cases value with
    | object fields => exact ⟨fields, rfl⟩
    | _ => cases found

theorem leaf_iff_mem (ordered : (object fields).Ordered) :
    (object fields).Leaf path s ↔ (path, s) ∈ leaves (object fields) :=
  leaf_object.trans ordered.mem_leaves.symm

/-- The last text with a key is the last one that the walk meets. -/
theorem lastLeaf_iff {key : Text} (ordered : (object fields).Ordered) :
    (object fields).LastLeaf key path s ↔ ∃ front behind,
      leaves (object fields) = front ++ (path, s) :: behind ∧ Text.joined ['.'] path = key ∧
        ∀ leaf ∈ behind, Text.joined ['.'] leaf.1 ≠ key := by
  have ascending := ordered.pairwise_leaves
  constructor
  · rintro ⟨leaf, joined, last⟩
    obtain ⟨front, behind, split⟩ := List.append_of_mem ((leaf_iff_mem ordered).mp leaf)
    refine ⟨front, behind, split, joined, fun later mem same => ?_⟩
    have inside : (later.1, later.2) ∈ leaves (object fields) := by simp [split, mem]
    rw [split, List.pairwise_append, List.pairwise_cons] at ascending
    have greater := Text.map_bytes_lt.mpr (ascending.2.1.1 later mem)
    exact absurd (last _ _ ((leaf_iff_mem ordered).mpr inside) same) (not_le.mpr greater)
  · rintro ⟨front, behind, split, joined, last⟩
    have inside : (path, s) ∈ leaves (object fields) := by simp [split]
    refine ⟨(leaf_iff_mem ordered).mpr inside, joined, fun path' s' leaf same => ?_⟩
    rw [split, List.pairwise_append] at ascending
    have mem := (leaf_iff_mem ordered).mp leaf
    rw [split, List.mem_append, List.mem_cons] at mem
    obtain former | ⟨⟨⟩⟩ | later := mem
    · have less := ascending.2.2 _ former _ List.mem_cons_self
      exact (Text.map_bytes_lt.mpr less).le
    · exact le_rfl
    · exact absurd same (last _ later)

end Json

namespace Translations

variable {value : Json} {fields : List (Text × Json)} {key : Text} {path : List Text} {s : Text}

/-- Of the members of a list that have a property there is a last one. -/
theorem exists_last {α : Type} {p : α → Prop} {xs : List α} (h : ∃ x ∈ xs, p x) :
    ∃ front x behind, xs = front ++ x :: behind ∧ p x ∧ ∀ y ∈ behind, ¬ p y := by
  induction xs with
  | nil => simp at h
  | cons x xs ih =>
    by_cases further : ∃ y ∈ xs, p y
    · obtain ⟨front, y, behind, rfl, here, last⟩ := ih further
      exact ⟨x :: front, y, behind, rfl, here, last⟩
    · obtain ⟨y, mem, here⟩ := h
      obtain rfl | later := List.mem_cons.mp mem
      · exact ⟨[], y, xs, rfl, here, fun z mem hz => further ⟨z, mem, hz⟩⟩
      · exact absurd ⟨y, later, here⟩ further

theorem ofJson_object (fields : List (Text × Json)) :
    (ofJson (.object fields)).entries = Keyed.ofList ((Json.leaves (.object fields)).map
      fun (path, s) => (Text.joined ['.'] path, s)) := rfl

theorem ofJson_other (other : ¬ ∃ fields, value = .object fields) : ofJson value = empty := by
  cases value with
  | object fields => exact absurd ⟨fields, rfl⟩ other
  | _ => rfl

/-- The keys are those to which paths of texts are joined. -/
theorem mem_keys_ofJson (ordered : value.Ordered) :
    key ∈ (ofJson value).entries.keys ↔
      ∃ path s, value.Leaf path s ∧ Text.joined ['.'] path = key := by
  by_cases root : ∃ fields, value = .object fields
  · obtain ⟨fields, rfl⟩ := root
    simp only [ofJson_object, Keyed.mem_keys_ofList, List.map_map, List.mem_map, Prod.exists,
      Function.comp_apply, Json.leaf_iff_mem ordered]
  · rw [ofJson_other root]
    refine iff_of_false List.not_mem_nil ?_
    rintro ⟨path, s, leaf, -⟩
    exact root leaf.exists_object

/-- The last text with a key is its translation. -/
theorem translate_of_lastLeaf (ordered : value.Ordered) (h : value.LastLeaf key path s) :
    (ofJson value).translate key = s := by
  obtain ⟨fields, rfl⟩ := h.leaf.exists_object
  obtain ⟨front, behind, split, rfl, last⟩ := (Json.lastLeaf_iff ordered).mp h
  rw [translate, ofJson_object, split, List.map_append, List.map_cons, Keyed.find?_ofList]
  · rfl
  · simpa using last

/-- For each key of the table there is a last text. -/
theorem exists_lastLeaf (ordered : value.Ordered) (h : value.Leaf path s) :
    ∃ path' s', value.LastLeaf (Text.joined ['.'] path) path' s' := by
  obtain ⟨fields, rfl⟩ := h.exists_object
  obtain ⟨front, ⟨path', s'⟩, behind, split, joined, last⟩ := exists_last
    (p := fun leaf => Text.joined ['.'] leaf.1 = Text.joined ['.'] path)
    ⟨_, (Json.leaf_iff_mem ordered).mp h, rfl⟩
  exact ⟨path', s', (Json.lastLeaf_iff ordered).mpr ⟨front, behind, split, joined, last⟩⟩

/-- There are as many entries as there are keys to which paths of texts are joined. -/
theorem size_ofJson (ordered : value.Ordered) :
    (Text.joined ['.'] '' {path | ∃ s, value.Leaf path s}).encard = (ofJson value).size := by
  have nodup : (ofJson value).entries.keys.Nodup := by
    by_cases root : ∃ fields, value = .object fields
    · obtain ⟨fields, rfl⟩ := root
      exact (Keyed.ascending_ofList _).nodup
    · rw [ofJson_other root]
      exact List.nodup_nil
  have keys : Text.joined ['.'] '' {path | ∃ s, value.Leaf path s} =
      ((ofJson value).entries.keys.toFinset : Set Text) := by
    ext key
    simp [mem_keys_ofJson ordered]
  rw [keys, Set.encard_coe_eq_coe_finsetCard, List.toFinset_card_of_nodup nodup, Keyed.keys,
    List.length_map, size]

/-- A key of the table is translated as the last of its texts. -/
theorem mem_keys_and_translate_iff (ordered : value.Ordered) :
    key ∈ (ofJson value).entries.keys ∧ (ofJson value).translate key = s ↔
      ∃ path, value.LastLeaf key path s := by
  rw [mem_keys_ofJson ordered]
  constructor
  · rintro ⟨⟨path, _, leaf, rfl⟩, rfl⟩
    obtain ⟨path', s', last⟩ := exists_lastLeaf ordered leaf
    rw [translate_of_lastLeaf ordered last]
    exact ⟨path', last⟩
  · rintro ⟨path, last⟩
    exact ⟨⟨path, s, last.leaf, last.joined⟩, translate_of_lastLeaf ordered last⟩

theorem translate_of_not_mem_keys {table : Translations} (outside : key ∉ table.entries.keys) :
    table.translate key = key := by
  rw [translate, Keyed.find?_eq_none.mpr outside, Option.getD_none]

section Single

variable (ordered : value.Ordered)
  (single : Set.InjOn (Text.joined ['.']) {path | ∃ s, value.Leaf path s})

include ordered single

/-- If no two paths are joined to the same key, there is one entry for each text. -/
theorem encard_leaves_of_injOn :
    {path | ∃ s, value.Leaf path s}.encard = (ofJson value).size :=
  single.encard_image.symm.trans (size_ofJson ordered)

theorem translate_joined_of_injOn (leaf : value.Leaf path s) :
    (ofJson value).translate (Text.joined ['.'] path) = s := by
  refine translate_of_lastLeaf ordered ⟨leaf, rfl, fun path' s' leaf' same => ?_⟩
  rw [single ⟨s', leaf'⟩ ⟨s, leaf⟩ same]

end Single

/-- The table of a value has the keys to which paths of texts are joined. Each of them is
translated as the last of its texts, in the order of the bytes of the keys of a path, and any
other key as itself. If no two paths are joined to the same key, there is one entry for each
text, under its own path. -/
theorem entries_of_leaves (ordered : value.Ordered) :
    (∀ key, key ∈ (ofJson value).entries.keys ↔
      ∃ path s, value.Leaf path s ∧ Text.joined ['.'] path = key) ∧
    (∀ key s, key ∈ (ofJson value).entries.keys ∧ (ofJson value).translate key = s ↔
      ∃ path, value.LastLeaf key path s) ∧
    (∀ key, key ∉ (ofJson value).entries.keys → (ofJson value).translate key = key) ∧
    ((∀ fields, value ≠ .object fields) → ∀ key, (ofJson value).translate key = key) ∧
    (Set.InjOn (Text.joined ['.']) {path | ∃ s, value.Leaf path s} →
      {path | ∃ s, value.Leaf path s}.encard = (ofJson value).size ∧
      ∀ path s, value.Leaf path s → (ofJson value).translate (Text.joined ['.'] path) = s) := by
  refine ⟨fun key => mem_keys_ofJson ordered, fun key s => mem_keys_and_translate_iff ordered,
    fun key => translate_of_not_mem_keys, fun other key => ?_,
    fun single => ⟨encard_leaves_of_injOn ordered single,
      fun path s => translate_joined_of_injOn ordered single⟩⟩
  rw [ofJson_other (not_exists.mpr other), translate_empty]

/-- Two texts with the same key, one of them under a key that holds a point. -/
def overlapping : Json :=
  .object [("a".toList, .object [("b".toList, .string "first".toList)]),
    ("a.b".toList, .string "second".toList)]

theorem entries_of_overlapping : overlapping.Ordered ∧
    "a.b".toList ∈ (ofJson overlapping).entries.keys ∧
    (ofJson overlapping).translate "a.b".toList = "second".toList := by
  have inner : (Json.object [("b".toList, .string "first".toList)]).Ordered :=
    .object (List.pairwise_singleton _ _) (List.forall_mem_singleton.mpr (.string _))
  have ordered : overlapping.Ordered :=
    .object (List.pairwise_pair.mpr (by decide))
      (List.forall_mem_cons.mpr ⟨inner, List.forall_mem_singleton.mpr (.string _)⟩)
  have last : overlapping.LastLeaf "a.b".toList ["a.b".toList] "second".toList :=
    (Json.lastLeaf_iff ordered).mpr ⟨[(["a".toList, "b".toList], "first".toList)], [], rfl, rfl,
      List.forall_mem_nil _⟩
  exact ⟨ordered, ((entries_of_leaves ordered).2.1 _ _).mpr ⟨_, last⟩⟩

/-- The table that a text writes has the entries of the value that it writes. The keys of each
object in such a value ascend, whatever order they have in the text. -/
theorem entries_of_parse? {t : Text} {table : Translations} (read : parse? t = some table) :
    ∃ value, Json.parse? t = some value ∧
      (∀ key, key ∈ table.entries.keys ↔
        ∃ path s, value.Leaf path s ∧ Text.joined ['.'] path = key) ∧
      (∀ key s, key ∈ table.entries.keys ∧ table.translate key = s ↔
        ∃ path, value.LastLeaf key path s) ∧
      (∀ key, key ∉ table.entries.keys → table.translate key = key) ∧
      (Set.InjOn (Text.joined ['.']) {path | ∃ s, value.Leaf path s} →
        {path | ∃ s, value.Leaf path s}.encard = table.size ∧
        ∀ path s, value.Leaf path s → table.translate (Text.joined ['.'] path) = s) := by
  obtain ⟨value, written, rfl⟩ := Option.map_eq_some_iff.mp read
  have ordered := Json.ordered_of_parse? written
  exact ⟨value, written, fun key => mem_keys_ofJson ordered,
    fun key s => mem_keys_and_translate_iff ordered, fun key => translate_of_not_mem_keys,
    fun single => ⟨encard_leaves_of_injOn ordered single,
      fun path s => translate_joined_of_injOn ordered single⟩⟩

end Translations

end RuleText
