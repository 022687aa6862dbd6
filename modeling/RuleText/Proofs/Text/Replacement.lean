import Mathlib.Data.List.Infix
import RuleText.Text.Basic

/-!
# Replacing parts of a text

A text in which a part is replaced everywhere is cut at this part, and what lies between is
joined with the replacement (`exists_cutAt`). What has been put in can hide what was there, but
a word that does not fit into it does not come about: if the replacement begins with a
character that the word does not have and does not have the first character of the word, the
word lies between two replacements (`infix_of_infix_joined`).
-/

namespace RuleText.Text

variable {old sep t : Text} {parts : List Text}

theorem occursIn_iff {part : Text} : occursIn part t = true ↔ part <:+: t := by
  induction t with
  | nil => simp [occursIn]
  | cons c t ih =>
    rw [occursIn, Bool.or_eq_true, List.isPrefixOf_iff_prefix, ih, List.infix_cons_iff]

/-! ### Joined parts -/

theorem joined_singleton (part : Text) : joined sep [part] = part :=
  List.intercalate_singleton

theorem joined_cons (part : Text) (h : parts ≠ []) :
    joined sep (part :: parts) = part ++ sep ++ joined sep parts :=
  List.intercalate_cons_of_ne_nil h

theorem prefix_joined (part : Text) (more : List Text) : part <+: joined sep (part :: more) := by
  by_cases last : more = []
  · subst last
    rw [joined_singleton]
  · rw [joined_cons _ last, List.append_assoc]
    exact List.prefix_append _ _

theorem joined_cons_char (c : Char) (part : Text) (more : List Text) :
    joined sep ((c :: part) :: more) = c :: joined sep (part :: more) := by
  by_cases last : more = []
  · subst last
    rw [joined_singleton, joined_singleton]
  · rw [joined_cons _ last, joined_cons _ last, List.cons_append, List.cons_append]

theorem infix_joined {part : Text} (h : part ∈ parts) : part <:+: joined sep parts := by
  induction parts with
  | nil => cases h
  | cons first more ih =>
    obtain rfl | further := List.mem_cons.mp h
    · exact (prefix_joined part more).isInfix
    · rw [joined_cons _ (List.ne_nil_of_mem further)]
      exact (ih further).trans (List.suffix_append _ _).isInfix

theorem separator_infix_joined (h : 1 < parts.length) : sep <:+: joined sep parts := by
  obtain ⟨first, second, more, rfl⟩ : ∃ first second more, parts = first :: second :: more := by
    match parts, h with
    | first :: second :: more, _ => exact ⟨first, second, more, rfl⟩
  rw [joined_cons _ (List.cons_ne_nil _ _)]
  exact List.infix_append _ _ _

theorem replaceChar_append (c : Char) (new s t : Text) :
    replaceChar c new (s ++ t) = replaceChar c new s ++ replaceChar c new t :=
  List.flatMap_append

theorem replaceChar_joined (c : Char) (new sep : Text) (parts : List Text) :
    replaceChar c new (joined sep parts) =
      joined (replaceChar c new sep) (parts.map (replaceChar c new)) := by
  induction parts with
  | nil => rfl
  | cons part parts ih =>
    by_cases last : parts = []
    · subst last
      rw [List.map_singleton, joined_singleton, joined_singleton]
    · have further : parts.map (replaceChar c new) ≠ [] := by simpa using last
      rw [joined_cons _ last, List.map_cons, joined_cons _ further, replaceChar_append,
        replaceChar_append, ih]

/-! ### Cutting -/

/-- The text is cut at a part that does not stand in what is between. -/
structure CutAt (t old : Text) (parts : List Text) : Prop where
  eq_joined : t = joined old parts
  ne_nil : parts ≠ []
  free : ∀ part ∈ parts, ¬ old <:+: part

/-- Replacing is cutting and joining. -/
theorem exists_cutAt (some_old : old ≠ []) (new t : Text) :
    ∃ parts, CutAt t old parts ∧ replaceAll old new t = joined new parts := by
  fun_induction replaceAll old new t with
  | case1 =>
    refine ⟨[[]], ⟨rfl, List.cons_ne_nil _ _, ?_⟩, rfl⟩
    rw [List.forall_mem_singleton, List.infix_nil]
    exact some_old
  | case2 c t here ih =>
    obtain ⟨parts, cut, replaced⟩ := ih
    have split : c :: t = old ++ t.drop (old.length - 1) := by
      obtain ⟨d, old, rfl⟩ := List.exists_cons_of_ne_nil some_old
      obtain ⟨rest, whole⟩ := List.isPrefixOf_iff_prefix.mp here.2
      obtain ⟨rfl, rfl⟩ : d = c ∧ old ++ rest = t := List.cons.inj whole
      simp
    refine ⟨[] :: parts, ⟨?_, List.cons_ne_nil _ _, ?_⟩, ?_⟩
    · rw [joined_cons _ cut.ne_nil, ← cut.eq_joined, List.nil_append, split]
    · rw [List.forall_mem_cons, List.infix_nil]
      exact ⟨some_old, cut.free⟩
    · rw [joined_cons _ cut.ne_nil, replaced, List.nil_append]
  | case3 c t other ih =>
    obtain ⟨parts, cut, replaced⟩ := ih
    obtain ⟨part, more, rfl⟩ := List.exists_cons_of_ne_nil cut.ne_nil
    obtain ⟨first, rest⟩ := List.forall_mem_cons.mp cut.free
    have whole : c :: t = joined old ((c :: part) :: more) := by
      rw [joined_cons_char, ← cut.eq_joined]
    refine ⟨(c :: part) :: more, ⟨whole, List.cons_ne_nil _ _, ?_⟩, ?_⟩
    · rw [List.forall_mem_cons, List.infix_cons_iff, not_or]
      refine ⟨⟨fun front => other ⟨some_old, ?_⟩, first⟩, rest⟩
      rw [List.isPrefixOf_iff_prefix, whole]
      exact front.trans (prefix_joined _ _)
    · rw [joined_cons_char, replaced]

/-- A character is replaced by cutting at it. -/
theorem replaceChar_eq_replaceAll (c : Char) (new t : Text) :
    replaceChar c new t = replaceAll [c] new t := by
  fun_induction replaceAll [c] new t with
  | case1 => rfl
  | case2 d t here ih =>
    obtain ⟨rfl, -⟩ := List.cons_prefix_cons.mp (List.isPrefixOf_iff_prefix.mp here.2)
    rw [← ih]
    simp [replaceChar]
  | case3 d t other ih =>
    have different : d ≠ c := by
      rintro rfl
      exact other ⟨List.cons_ne_nil _ _, by simp⟩
    rw [← ih]
    simp [replaceChar, different]

/-! ### Words that do not come about -/

theorem prefix_of_prefix_append {d : Char} {w x z : Text} (outside : d ∉ w)
    (h : w <+: x ++ d :: z) : w <+: x := by
  induction x generalizing w with
  | nil =>
    cases w with
    | nil => exact List.nil_prefix
    | cons a w => exact absurd (List.cons_prefix_cons.mp h).1.symm (List.ne_of_not_mem_cons outside)
  | cons c x ih =>
    cases w with
    | nil => exact List.nil_prefix
    | cons a w =>
      obtain ⟨rfl, rest⟩ := List.cons_prefix_cons.mp h
      exact List.cons_prefix_cons.mpr ⟨rfl, ih (List.not_mem_of_not_mem_cons outside) rest⟩

/-- A word that does not fit into a replacement stands in front of it or behind it. -/
theorem infix_or_infix_of_between {a d : Char} {w r x y : Text} (first : r.head? = some d)
    (outside : d ∉ a :: w) (start : a ∉ r) (h : a :: w <:+: x ++ r ++ y) :
    a :: w <:+: x ∨ a :: w <:+: y := by
  rw [List.append_assoc] at h
  induction x with
  | nil =>
    -- the word starts behind the replacement
    right
    clear first
    induction r with
    | nil => exact h
    | cons c r ih =>
      obtain ⟨different, further⟩ : a ≠ c ∧ a ∉ r := by simpa using start
      obtain front | behind := List.infix_cons_iff.mp h
      · exact absurd (List.cons_prefix_cons.mp front).1 different
      · exact ih further behind
  | cons c x ih =>
    obtain front | behind := List.infix_cons_iff.mp h
    · obtain ⟨r, rfl⟩ := List.head?_eq_some_iff.mp first
      exact .inl (prefix_of_prefix_append outside front).isInfix
    · exact (ih behind).imp_left fun inside => inside.trans (List.suffix_cons c x).isInfix

theorem infix_of_infix_joined {a d : Char} {w : Text} (first : sep.head? = some d)
    (outside : d ∉ a :: w) (start : a ∉ sep) (h : a :: w <:+: joined sep parts) :
    ∃ part ∈ parts, a :: w <:+: part := by
  induction parts with
  | nil => simp [joined, List.intercalate] at h
  | cons part parts ih =>
    by_cases last : parts = []
    · subst last
      refine ⟨part, List.mem_singleton_self _, ?_⟩
      rwa [joined_singleton] at h
    · rw [joined_cons _ last] at h
      obtain front | behind := infix_or_infix_of_between first outside start h
      · exact ⟨part, List.mem_cons_self, front⟩
      · obtain ⟨other, mem, inside⟩ := ih behind
        exact ⟨other, List.mem_cons_of_mem _ mem, inside⟩

end RuleText.Text
