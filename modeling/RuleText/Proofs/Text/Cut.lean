import RuleText.Text.Basic

/-!
# Cutting a text at a byte offset

An offset counts bytes of the UTF-8 form. A text can only be cut between two characters, or
at one of its ends. The places at which a character is found are such places.
-/

namespace RuleText.Text

/-- The byte offset of the first `c`. -/
def offset? (c : Char) : Text → Option Nat
  | [] => none
  | d :: t => if d = c then some 0 else (offset? c t).map (d.utf8Size + ·)

/-- The parts before and behind a byte offset, if it lies between characters. -/
def cutAt? : (offset : Nat) → Text → Option (Text × Text)
  | 0, t => some ([], t)
  | _ + 1, [] => none
  | offset + 1, c :: t =>
    if c.utf8Size ≤ offset + 1 then
      (cutAt? (offset + 1 - c.utf8Size) t).map fun (front, behind) => (c :: front, behind)
    else none

/-- The part from one byte offset up to another, if the text can be cut at both. -/
def between? (start stop : Nat) (t : Text) : Option Text :=
  (cutAt? stop t).bind fun (front, _) => (cutAt? start front).map Prod.snd

variable {c : Char} {t front behind : Text} {offset : Nat}

theorem offset?_eq_none (h : c ∉ t) : offset? c t = none := by
  induction t with
  | nil => rfl
  | cons d t ih =>
    obtain ⟨other, outside⟩ : c ≠ d ∧ c ∉ t := by simpa using h
    rw [offset?, if_neg (Ne.symm other), ih outside]
    rfl

theorem offset?_append (h : c ∉ front) :
    offset? c (front ++ c :: behind) = some front.utf8Size := by
  induction front with
  | nil => simp [offset?]
  | cons d front ih =>
    obtain ⟨other, outside⟩ : c ≠ d ∧ c ∉ front := by simpa using h
    rw [List.cons_append, offset?, if_neg (Ne.symm other), ih outside]
    rfl

/-- A text can be cut behind each of its parts. -/
theorem cutAt?_append (front behind : Text) :
    cutAt? front.utf8Size (front ++ behind) = some (front, behind) := by
  induction front with
  | nil => simp [cutAt?]
  | cons d front ih =>
    obtain ⟨n, size⟩ : ∃ n, d.utf8Size + utf8Size front = n + 1 :=
      Nat.exists_eq_succ_of_ne_zero (by have := d.utf8Size_pos; omega)
    have left : n + 1 - d.utf8Size = utf8Size front := by omega
    rw [utf8Size_cons, size, List.cons_append, cutAt?, if_pos (by omega), left, ih]
    rfl

/-- A text is only cut where it has a part. -/
theorem of_cutAt? (h : cutAt? offset t = some (front, behind)) :
    t = front ++ behind ∧ front.utf8Size = offset := by
  fun_induction cutAt? offset t generalizing front behind with
  | case1 t =>
    cases h
    exact ⟨rfl, rfl⟩
  | case2 => cases h
  | case3 offset c t fits ih =>
    obtain ⟨⟨front, behind⟩, cut, same⟩ := Option.map_eq_some_iff.mp h
    cases same
    obtain ⟨rfl, size⟩ := ih cut
    exact ⟨rfl, by rw [utf8Size_cons, size]; omega⟩
  | case4 => cases h

theorem length_lt_of_cutAt? (h : cutAt? (offset + 1) t = some (front, behind)) :
    behind.length < t.length := by
  obtain ⟨rfl, size⟩ := of_cutAt? h
  cases front with
  | nil => simp at size
  | cons d front => simp only [List.length_append, List.length_cons]; omega

end RuleText.Text
