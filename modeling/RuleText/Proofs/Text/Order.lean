import Mathlib.Data.Char
import Mathlib.Data.List.Induction
import Mathlib.Data.List.Lex
import Mathlib.Order.Lattice
import Mathlib.Order.Monotone.Basic
import RuleText.Text.Keyed

/-!
# The order of texts

Texts are compared character by character. The bytes of their UTF-8 forms are in the same
order: the number of bytes grows with the character and can be seen from the first one, and
the bytes of one length write the number of the character with its highest digits first.

Tables are kept in this order, with each key once, whatever is set in them.
-/

namespace RuleText

namespace Text

/-- The bytes of the UTF-8 form of a character, as numbers. -/
def bytesOf (c : Char) : List ℕ :=
  (String.utf8EncodeChar c).map UInt8.toNat

/-- The bytes of the UTF-8 form. -/
def bytes (t : Text) : List ℕ :=
  t.flatMap bytesOf

@[simp] theorem bytes_cons (c : Char) (t : Text) :
    bytes (c :: t) = bytesOf c ++ bytes t := rfl

theorem bytes_append (s t : Text) : bytes (s ++ t) = bytes s ++ bytes t :=
  List.flatMap_append

theorem length_bytesOf (c : Char) : (bytesOf c).length = c.utf8Size := by
  rw [bytesOf, List.length_map, String.length_utf8EncodeChar]

theorem length_bytes (t : Text) : (bytes t).length = t.utf8Size := by
  induction t with
  | nil => rfl
  | cons c t ih => rw [bytes_cons, List.length_append, length_bytesOf, ih, utf8Size_cons]

theorem before_iff {s t : Text} : before s t = true ↔ s < t := by
  induction s generalizing t with
  | nil =>
    cases t with
    | nil => simp [before]
    | cons b t => simp [before]
  | cons a s ih =>
    cases t with
    | nil => simp [before]
    | cons b t =>
      rw [List.cons_lt_cons_iff]
      by_cases same : a = b
      · simp [before, same, ih]
      · simp only [before, same, if_false, false_and, or_false, decide_eq_true_eq]
        exact Iff.rfl

/-! ### Bytes -/

variable {m n : ℕ} {x y : List ℕ}

theorem byte_cons_lt (bound : n < 256) (h : m < n ∨ m = n ∧ x < y) :
    (UInt8.ofNat m).toNat :: x < (UInt8.ofNat n).toNat :: y := by
  rw [List.cons_lt_cons_iff, UInt8.toNat_ofNat', UInt8.toNat_ofNat']
  obtain less | ⟨rfl, rest⟩ := h
  · exact .inl (by omega)
  · exact .inr ⟨rfl, rest⟩

/-- The smaller character has the smaller bytes, whatever follows. -/
theorem bytesOf_append_lt {a b : Char} (h : a < b) (x y : List ℕ) :
    bytesOf a ++ x < bytesOf b ++ y := by
  have less : a.val.toNat < b.val.toNat := h
  have bound : b.val.toNat < 1114112 := by
    obtain below | ⟨-, below⟩ := b.valid
    · exact below.trans (by decide)
    · exact below
  simp only [bytesOf, String.utf8EncodeChar]
  generalize a.val.toNat = m at less
  generalize b.val.toNat = n at less bound
  -- the first digit to the base 64 that is different is the smaller one
  have last : m / 64 < n / 64 ∨ m / 64 = n / 64 ∧ m % 64 < n % 64 := by omega
  have third : m / 64 < n / 64 →
      m / 4096 < n / 4096 ∨ m / 4096 = n / 4096 ∧ m / 64 % 64 < n / 64 % 64 := by omega
  have second : m / 4096 < n / 4096 →
      m / 262144 < n / 262144 ∨ m / 262144 = n / 262144 ∧ m / 4096 % 64 < n / 4096 % 64 := by omega
  split_ifs
  all_goals simp only [List.map_cons, List.map_nil, List.cons_append, List.nil_append]
  -- with different numbers of bytes the first one decides
  all_goals try omega
  all_goals try exact byte_cons_lt (by omega) (.inl (by omega))
  · refine byte_cons_lt (by omega) (last.imp (by omega) fun ⟨same, less⟩ => ⟨by omega, ?_⟩)
    exact byte_cons_lt (by omega) (.inl (by omega))
  · obtain less | ⟨same, less⟩ := last
    · refine byte_cons_lt (by omega)
        ((third less).imp (by omega) fun ⟨same, less⟩ => ⟨by omega, ?_⟩)
      exact byte_cons_lt (by omega) (.inl (by omega))
    · refine byte_cons_lt (by omega) (.inr ⟨by omega, ?_⟩)
      refine byte_cons_lt (by omega) (.inr ⟨by omega, ?_⟩)
      exact byte_cons_lt (by omega) (.inl (by omega))
  · obtain less | ⟨same, less⟩ := last
    · obtain less | ⟨same, less⟩ := third less
      · refine byte_cons_lt (by omega)
          ((second less).imp (by omega) fun ⟨same, less⟩ => ⟨by omega, ?_⟩)
        exact byte_cons_lt (by omega) (.inl (by omega))
      · refine byte_cons_lt (by omega) (.inr ⟨by omega, ?_⟩)
        refine byte_cons_lt (by omega) (.inr ⟨by omega, ?_⟩)
        exact byte_cons_lt (by omega) (.inl (by omega))
    · refine byte_cons_lt (by omega) (.inr ⟨by omega, ?_⟩)
      refine byte_cons_lt (by omega) (.inr ⟨by omega, ?_⟩)
      refine byte_cons_lt (by omega) (.inr ⟨by omega, ?_⟩)
      exact byte_cons_lt (by omega) (.inl (by omega))

/-- Texts are in the order of their bytes. -/
theorem bytes_strictMono : StrictMono bytes := by
  intro s t less
  induction less with
  | @nil b t =>
    have size : 0 < (bytesOf b).length := length_bytesOf b ▸ b.utf8Size_pos
    obtain ⟨first, more, eq⟩ := List.exists_cons_of_length_pos size
    rw [bytes_cons, eq]
    exact List.nil_lt_cons _ _
  | cons _ ih => exact List.append_left_lt ih
  | rel less => exact bytesOf_append_lt less _ _

theorem map_bytes_lt {p q : List Text} : p.map bytes < q.map bytes ↔ p < q :=
  StrictMono.lt_iff_lt (f := List.map bytes) fun _ _ => List.map_lt fun _ _ => (bytes_strictMono ·)

end Text

/-! ### Tables -/

namespace Keyed

variable {α : Type} {key : Text} {value : α} {table : Keyed α} {entries : List (Text × α)}

/-- The keys. -/
def keys (table : Keyed α) : List Text :=
  table.map Prod.fst

/-- The keys ascend. -/
def Ascending (table : Keyed α) : Prop :=
  table.keys.Pairwise (· < ·)

theorem mem_keys_set {other : Text} :
    other ∈ (set key value table).keys ↔ other = key ∨ other ∈ table.keys := by
  fun_induction set key value table with
  | case1 => simp [keys]
  | case2 v more => simp [keys]
  | case3 k v more => simp [keys]
  | case4 k v more _ _ ih =>
    simp only [keys, List.map_cons, List.mem_cons] at ih ⊢
    rw [ih, or_left_comm]

/-- Setting a key keeps the order. -/
theorem ascending_set (h : table.Ascending) : (set key value table).Ascending := by
  fun_induction set key value table with
  | case1 => exact List.pairwise_singleton _ _
  | case2 v more => exact h
  | case3 k v more _ first =>
    refine List.Pairwise.cons ?_ h
    intro other mem
    obtain rfl | further := List.mem_cons.mp mem
    · exact Text.before_iff.mp first
    · exact (Text.before_iff.mp first).trans ((List.pairwise_cons.mp h).1 other further)
  | case4 k v more different later ih =>
    obtain ⟨below, rest⟩ := List.pairwise_cons.mp h
    refine List.Pairwise.cons ?_ (ih rest)
    intro other mem
    obtain rfl | further := mem_keys_set.mp mem
    · rw [Text.before_iff] at later
      exact lt_of_le_of_ne (not_lt.mp later) (Ne.symm different)
    · exact below other further

theorem mem_iff_find? (h : table.Ascending) :
    (key, value) ∈ table ↔ find? key table = some value := by
  fun_induction find? key table with
  | case1 => simp
  | case2 v more =>
    have fresh : key ∉ more.map Prod.fst := fun mem =>
      lt_irrefl key ((List.pairwise_cons.mp h).1 key mem)
    have other : (key, value) ∉ more := fun mem => fresh (List.mem_map_of_mem mem)
    simp [other, eq_comm]
  | case3 k v more different ih =>
    rw [← ih (List.pairwise_cons.mp h).2]
    simp [different]

theorem find?_eq_none : find? key table = none ↔ key ∉ table.keys := by
  fun_induction find? key table with
  | case1 => simp [keys]
  | case2 v more => simp [keys]
  | case3 k v more different ih => simp_all [keys]

/-! ### Lists that become tables -/

theorem ofList_concat (entries : List (Text × α)) (key : Text) (value : α) :
    ofList (entries ++ [(key, value)]) = set key value (ofList entries) := by
  simp [ofList]

theorem ascending_ofList (entries : List (Text × α)) : (ofList entries).Ascending := by
  induction entries using List.reverseRecOn with
  | nil => exact List.Pairwise.nil
  | append_singleton entries entry ih =>
    rw [ofList_concat]
    exact ascending_set ih

theorem mem_keys_ofList : key ∈ (ofList entries).keys ↔ key ∈ entries.map Prod.fst := by
  induction entries using List.reverseRecOn with
  | nil => rfl
  | append_singleton entries entry ih =>
    rw [ofList_concat, mem_keys_set, ih]
    simp [or_comm]

/-- Of several entries with a key the last one is found. -/
theorem find?_ofList {front behind : List (Text × α)} (last : key ∉ behind.map Prod.fst) :
    find? key (ofList (front ++ (key, value) :: behind)) = some value := by
  induction behind using List.reverseRecOn with
  | nil => rw [ofList_concat, find?_set_self]
  | append_singleton behind entry ih =>
    obtain ⟨k, v⟩ := entry
    rw [List.map_append, List.mem_append, not_or, List.map_singleton, List.mem_singleton] at last
    have regroup : front ++ (key, value) :: (behind ++ [(k, v)]) =
        front ++ (key, value) :: behind ++ [(k, v)] := by simp
    rw [regroup, ofList_concat, find?_set_of_ne v _ last.2, ih last.1]

end Keyed

end RuleText
