import RuleText.Text.Basic

/-!
# Slices of a text

Places in a text are counted in bytes of the UTF-8 form. A part of a text is the slice
from the byte before it up to the byte behind it (`Text.slice_append`).
-/

namespace RuleText

namespace Text

theorem utf8Size_pos {t : Text} (h : t ≠ []) : 0 < t.utf8Size := by
  obtain ⟨c, t, rfl⟩ := List.exists_cons_of_ne_nil h
  have := c.utf8Size_pos
  rw [utf8Size_cons]
  omega

/-- The characters that start at a byte from `start` up to `stop`, in a text whose own
first byte is at `offset`. -/
def sliceFrom (offset : Nat) : Text → (start stop : Nat) → Text
  | [], _, _ => []
  | c :: t, start, stop =>
    if start ≤ offset ∧ offset < stop then c :: sliceFrom (offset + c.utf8Size) t start stop
    else sliceFrom (offset + c.utf8Size) t start stop

/-- The part of a text from one byte up to another, which lie between characters. -/
def slice (t : Text) (start stop : Nat) : Text :=
  sliceFrom 0 t start stop

variable {offset start stop : Nat}

theorem sliceFrom_append (s t : Text) : sliceFrom offset (s ++ t) start stop =
    sliceFrom offset s start stop ++ sliceFrom (offset + s.utf8Size) t start stop := by
  induction s generalizing offset with
  | nil => rfl
  | cons c s ih =>
    rw [List.cons_append, sliceFrom, sliceFrom, ih, utf8Size_cons, Nat.add_assoc]
    split <;> rfl

theorem sliceFrom_of_inside {t : Text} (first : start ≤ offset)
    (last : offset + t.utf8Size ≤ stop) : sliceFrom offset t start stop = t := by
  induction t generalizing offset with
  | nil => rfl
  | cons c t ih =>
    have := c.utf8Size_pos
    rw [utf8Size_cons] at last
    rw [sliceFrom, if_pos (by omega), ih (by omega) (by omega)]

theorem sliceFrom_of_outside {t : Text} (h : offset + t.utf8Size ≤ start ∨ stop ≤ offset) :
    sliceFrom offset t start stop = [] := by
  induction t generalizing offset with
  | nil => rfl
  | cons c t ih =>
    have := c.utf8Size_pos
    rw [utf8Size_cons] at h
    rw [sliceFrom, if_neg (by omega), ih (by omega)]

theorem slice_all (t : Text) : t.slice 0 t.utf8Size = t :=
  sliceFrom_of_inside (Nat.le_refl 0) (Nat.le_of_eq (Nat.zero_add _))

/-- A part of a text is the slice at its place. -/
theorem slice_append (before s after : Text) :
    (before ++ (s ++ after)).slice before.utf8Size (before.utf8Size + s.utf8Size) = s := by
  rw [slice, sliceFrom_append, sliceFrom_append, sliceFrom_of_outside (.inl (by omega)),
    sliceFrom_of_inside (by omega) (by omega), sliceFrom_of_outside (.inr (by omega)),
    List.nil_append, List.append_nil]

/-- Slices that follow each other are one slice. -/
theorem sliceFrom_append_sliceFrom {middle : Nat} (t : Text) (first : start ≤ middle)
    (last : middle ≤ stop) :
    sliceFrom offset t start middle ++ sliceFrom offset t middle stop =
      sliceFrom offset t start stop := by
  induction t generalizing offset with
  | nil => rfl
  | cons c t ih =>
    have more := @ih (offset + c.utf8Size)
    simp only [sliceFrom]
    by_cases inside : start ≤ offset
    · by_cases early : offset < middle
      · rw [if_pos ⟨inside, early⟩, if_neg (by omega), if_pos (by omega), List.cons_append, more]
      · -- Nothing is left of the first slice.
        rw [sliceFrom_of_outside (.inr (by omega)), List.nil_append] at more
        have same : (middle ≤ offset ∧ offset < stop) ↔ (start ≤ offset ∧ offset < stop) := by
          omega
        rw [if_neg (by omega), sliceFrom_of_outside (.inr (by omega)), List.nil_append, more]
        simp only [same]
    · rw [if_neg (by omega), if_neg (by omega), if_neg (by omega), more]

theorem slice_append_slice {middle : Nat} (t : Text) (first : start ≤ middle)
    (last : middle ≤ stop) : t.slice start middle ++ t.slice middle stop = t.slice start stop :=
  sliceFrom_append_sliceFrom t first last

end Text

end RuleText
