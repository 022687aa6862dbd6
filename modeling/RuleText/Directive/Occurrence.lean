import RuleText.Text.Word

/-!
# Directives in a text

A block directive is written `@Name[payload]` and an inline directive
`[[/name payload]]`; either may be followed by a display text in braces. They are
looked for from the left and do not overlap.

Three kinds of directives are looked for in turn. The payload of a damage block
may hold brackets of its own if they are balanced; the payload of any other
directive ends at the first closing bracket.

A scan cuts a text into the characters between directives and the directives. Put
together again the pieces are the text (`scan_text`).
-/

namespace RuleText.Directive

/-- The two ways to write a directive. -/
inductive Form where
  | block
  | inline
deriving DecidableEq, Repr

/-- A directive as it stands in a text. -/
structure Occurrence where
  form : Form
  name : Text
  payload : Text
  display : Option Text
deriving DecidableEq, Repr

/-- A display text in its braces. -/
def displayText : Option Text → Text
  | none => []
  | some display => '\x7b' :: display ++ ['\x7d']

namespace Occurrence

/-- The directive as it is written. -/
def text (o : Occurrence) : Text :=
  match o.form with
  | .block => '@' :: o.name ++ '[' :: o.payload ++ ']' :: displayText o.display
  | .inline => "[[/".toList ++ o.name ++ ' ' :: o.payload ++ "]]".toList ++ displayText o.display

theorem length_text_pos (o : Occurrence) : 0 < o.text.length := by
  unfold text
  split <;> simp

end Occurrence

/-! ### Recognizing a directive at the front of a text -/

/-- The longest beginning made of characters with a property, and the rest. There
must be at least one such character. -/
def run? (p : Char → Bool) (t : Text) : Option (Text × Text) :=
  if t.takeWhile p = [] then none else some (t.takeWhile p, t.dropWhile p)

theorem eq_of_run? {p : Char → Bool} {t run rest : Text} (h : run? p t = some (run, rest)) :
    t = run ++ rest := by
  by_cases hr : t.takeWhile p = []
  · simp [run?, hr] at h
  · simp [run?, hr] at h
    rw [← h.1, ← h.2, List.takeWhile_append_dropWhile]

/-- The display text in braces at the front of a text, if there is one. It is not
empty and ends at the first closing brace. -/
def display? (t : Text) : Option Text := do
  let rest ← Text.after? ['\x7b'] t
  let (display, rest) ← run? (· ≠ '\x7d') rest
  let _ ← Text.after? ['\x7d'] rest
  return display

theorem exists_rest_of_display (t : Text) : ∃ rest, t = displayText (display? t) ++ rest := by
  cases h : display? t with
  | none => exact ⟨t, rfl⟩
  | some d =>
    simp only [display?, Option.bind_eq_bind, Option.bind_eq_some_iff, Option.pure_def,
      Option.some.injEq] at h
    obtain ⟨inner, h₁, ⟨shown, rest⟩, h₂, last, h₃, rfl⟩ := h
    have e₁ := Text.eq_of_after? h₁
    have e₂ := eq_of_run? h₂
    have e₃ : rest = ['\x7d'] ++ last := Text.eq_of_after? h₃
    exact ⟨last, by simp [displayText, e₁, e₂, e₃]⟩

/-- The text up to the first closing bracket that no opening bracket before it
matches, and what follows that bracket. `depth` brackets are open. -/
def upToClosing : (depth : Nat) → Text → Option (Text × Text)
  | _, [] => none
  | depth, c :: t =>
    if c = '[' then (upToClosing (depth + 1) t).map fun (inner, rest) => (c :: inner, rest)
    else if c = ']' then
      match depth with
      | 0 => some ([], t)
      | depth + 1 => (upToClosing depth t).map fun (inner, rest) => (c :: inner, rest)
    else (upToClosing depth t).map fun (inner, rest) => (c :: inner, rest)

theorem eq_of_upToClosing {depth : Nat} {t inner rest : Text}
    (h : upToClosing depth t = some (inner, rest)) : t = inner ++ ']' :: rest := by
  fun_induction upToClosing depth t generalizing inner with
  | case1 => simp at h
  | case2 _ _ ih =>
    simp at h
    obtain ⟨_, h, rfl⟩ := h
    simp [ih h]
  | case3 =>
    simp at h
    simp [← h.1, h.2]
  | case4 _ _ _ ih =>
    simp at h
    obtain ⟨_, h, rfl⟩ := h
    simp [ih h]
  | case5 _ _ _ _ _ ih =>
    simp at h
    obtain ⟨_, h, rfl⟩ := h
    simp [ih h]

/-- A damage block at the front of a text. -/
def damageBlock? (t : Text) : Option Occurrence := do
  let rest ← Text.after? "@Damage[".toList t
  let (payload, rest) ← upToClosing 0 rest
  return ⟨.block, "Damage".toList, payload, display? rest⟩

/-- A block at the front of a text. -/
def block? (t : Text) : Option Occurrence := do
  let rest ← Text.after? ['@'] t
  let (name, rest) ← run? Text.isWord rest
  let rest ← Text.after? ['['] rest
  let (payload, rest) ← run? (· ≠ ']') rest
  let rest ← Text.after? [']'] rest
  return ⟨.block, name, payload, display? rest⟩

/-- An inline directive at the front of a text. -/
def inline? (t : Text) : Option Occurrence := do
  let rest ← Text.after? "[[/".toList t
  let (name, rest) ← run? Text.isWord rest
  let rest ← Text.after? [' '] rest
  let (payload, rest) ← run? (· ≠ ']') rest
  let rest ← Text.after? "]]".toList rest
  return ⟨.inline, name, payload, display? rest⟩

/-- A recognizer finds only directives that stand at the front of a text. -/
def Sound (recognize : Text → Option Occurrence) : Prop :=
  ∀ t o, recognize t = some o → ∃ rest, t = o.text ++ rest

theorem sound_damageBlock? : Sound damageBlock? := by
  intro t o h
  simp [damageBlock?, Option.bind_eq_some_iff] at h
  obtain ⟨inside, h₁, payload, after, h₂, rfl⟩ := h
  obtain ⟨rest, h₃⟩ := exists_rest_of_display after
  refine ⟨rest, ?_⟩
  rw [Text.eq_of_after? h₁, eq_of_upToClosing h₂]
  conv => lhs; rw [h₃]
  simp [Occurrence.text]

theorem sound_block? : Sound block? := by
  intro t o h
  simp [block?, Option.bind_eq_some_iff] at h
  obtain ⟨r₁, h₁, name, r₂, h₂, r₃, h₃, payload, r₄, h₄, after, h₅, rfl⟩ := h
  obtain ⟨rest, h₆⟩ := exists_rest_of_display after
  refine ⟨rest, ?_⟩
  rw [Text.eq_of_after? h₁, eq_of_run? h₂, Text.eq_of_after? h₃, eq_of_run? h₄,
    Text.eq_of_after? h₅]
  conv => lhs; rw [h₆]
  simp [Occurrence.text]

theorem sound_inline? : Sound inline? := by
  intro t o h
  simp [inline?, Option.bind_eq_some_iff] at h
  obtain ⟨r₁, h₁, name, r₂, h₂, r₃, h₃, payload, r₄, h₄, after, h₅, rfl⟩ := h
  obtain ⟨rest, h₆⟩ := exists_rest_of_display after
  refine ⟨rest, ?_⟩
  rw [Text.eq_of_after? h₁, eq_of_run? h₂, Text.eq_of_after? h₃, eq_of_run? h₄,
    Text.eq_of_after? h₅]
  conv => lhs; rw [h₆]
  simp [Occurrence.text]

/-! ### Scanning a text -/

/-- A piece of a scanned text. -/
inductive Piece where
  | plain (c : Char)
  | directive (o : Occurrence)
deriving DecidableEq, Repr

namespace Piece

/-- The piece as it is written. -/
def text : Piece → Text
  | plain c => [c]
  | directive o => o.text

end Piece

/-- The pieces of a text: at each place a directive, if one is recognized there, or
else a single character. -/
def scan (recognize : Text → Option Occurrence) (t : Text) : List Piece :=
  match t with
  | [] => []
  | c :: cs =>
    match recognize (c :: cs) with
    | some o => .directive o :: scan recognize ((c :: cs).drop o.text.length)
    | none => .plain c :: scan recognize cs
termination_by t.length
decreasing_by
  · have := o.length_text_pos
    simp only [List.length_drop, List.length_cons]
    omega
  · simp only [List.length_cons]
    omega

/-- Scanning loses nothing. -/
theorem scan_text {recognize : Text → Option Occurrence} (sound : Sound recognize) (t : Text) :
    (scan recognize t).flatMap Piece.text = t := by
  fun_induction scan recognize t with
  | case1 => rfl
  | case2 c cs o h ih =>
    obtain ⟨rest, hr⟩ := sound _ _ h
    rw [List.flatMap_cons, ih, hr]
    simp [Piece.text]
  | case3 c cs h ih =>
    rw [List.flatMap_cons, ih]
    simp [Piece.text]

/-- The directives of a scanned text, in order. -/
def occurrences (pieces : List Piece) : List Occurrence :=
  pieces.filterMap fun
    | .plain _ => none
    | .directive o => some o

/-- The text in which every directive has been replaced by its resolution, from the
left. -/
def replaceAll {m : Type → Type} [Monad m] (resolve : Occurrence → m Text) :
    List Piece → m Text
  | [] => pure []
  | .plain c :: pieces => do
    let rest ← replaceAll resolve pieces
    return c :: rest
  | .directive o :: pieces => do
    let resolved ← resolve o
    let rest ← replaceAll resolve pieces
    return resolved ++ rest

end RuleText.Directive
