import RuleText.Proofs.Directive.Recognition
import RuleText.Proofs.Text.Slice
import RuleText.Directive.Rendering

/-!
# What a scan finds

A text is scanned in three passes: for damage blocks, for all blocks and for inline
directives. How a directive of a pass is spelled is said by `Spells`, without the
recognizers, and a recognizer accepts exactly what is spelled so
(`Pass.recognize_eq_some_iff`).

A scan is sound, complete and lossless (`found_sound_and_complete`): what it finds
stands at disjoint ranges in order, every place where a directive is spelled lies in
one of the ranges, and replacing directives leaves the text between the ranges as it
is. Ranges count the bytes of the UTF-8 form.
-/

namespace RuleText

namespace Directive

/-! ### Directives as they are spelled -/

/-- The passes over a text, each with directives of its own. -/
inductive Pass where
  | damage
  | block
  | inline
deriving DecidableEq

namespace Pass

/-- How a directive of the pass is recognized at the front of a text. -/
def recognize : Pass → Text → Option Occurrence
  | damage => damageBlock?
  | block => block?
  | inline => inline?

/-- The form of the directives of the pass. -/
def form : Pass → Form
  | damage | block => .block
  | inline => .inline

end Pass

/-- What a directive of a pass may be, up to its display text: its name, its payload and
how it is written. -/
inductive Spells : Pass → (name payload written : Text) → Prop
  | damage {payload : Text} : payload.Balanced →
      Spells .damage "Damage".toList payload ("@Damage[".toList ++ payload ++ [']'])
  | block {name payload : Text} : name ≠ [] → (∀ c ∈ name, Text.isWord c = true) →
      payload ≠ [] → ']' ∉ payload →
      Spells .block name payload (['@'] ++ name ++ ['['] ++ payload ++ [']'])
  | inline {name payload : Text} : name ≠ [] → (∀ c ∈ name, Text.isWord c = true) →
      payload ≠ [] → ']' ∉ payload →
      Spells .inline name payload ("[[/".toList ++ name ++ [' '] ++ payload ++ "]]".toList)

/-- What may stand between braces as a display text. -/
def IsDisplay (d : Text) : Prop :=
  d ≠ [] ∧ '\x7d' ∉ d

instance (d : Text) : Decidable (IsDisplay d) :=
  inferInstanceAs (Decidable (_ ∧ _))

theorem forall_mem_of_run? {p : Char → Bool} {t run rest : Text}
    (h : run? p t = some (run, rest)) : run ≠ [] ∧ ∀ c ∈ run, p c = true := by
  by_cases empty : t.takeWhile p = []
  · simp [run?, empty] at h
  · simp only [run?, if_neg empty, Option.some.injEq, Prod.mk.injEq] at h
    obtain ⟨rfl, rfl⟩ := h
    exact ⟨empty, List.all_eq_true.mp List.all_takeWhile⟩

theorem not_mem_of_run?_ne {stop : Char} {t run rest : Text}
    (h : run? (· ≠ stop) t = some (run, rest)) : run ≠ [] ∧ stop ∉ run := by
  obtain ⟨nonempty, inside⟩ := forall_mem_of_run? h
  exact ⟨nonempty, fun mem => by simpa using inside stop mem⟩

/-- A display text is read exactly where one stands in braces. -/
theorem display?_eq_some_iff {t d : Text} :
    display? t = some d ↔ IsDisplay d ∧ ∃ rest, t = displayText (some d) ++ rest := by
  constructor
  · intro h
    have stands := exists_rest_of_display t
    rw [h] at stands
    simp only [display?, Option.bind_eq_bind, Option.bind_eq_some_iff, Option.pure_def,
      Option.some.injEq] at h
    obtain ⟨inner, -, ⟨shown, rest⟩, read, -, -, rfl⟩ := h
    exact ⟨not_mem_of_run?_ne read, stands⟩
  · rintro ⟨⟨nonempty, closed⟩, rest, rfl⟩
    refine display?_displayText (fun _ h => Option.some.inj h ▸ ⟨nonempty, closed⟩) ?_
    rintro ⟨⟩

theorem forall_prefix_cons {P : Text → Prop} {c : Char} {t : Text} (nil : P [])
    (cons : ∀ p, p <+: t → P (c :: p)) : ∀ p, p <+: c :: t → P p := by
  intro p hp
  obtain rfl | ⟨q, rfl, hq⟩ := List.prefix_cons_iff.mp hp
  · exact nil
  · exact cons q hq

/-- Up to the closing bracket that is found brackets are balanced, where the `depth`
brackets that were open before are counted. -/
theorem balanced_of_upToClosing {depth : Nat} {t inner rest : Text}
    (h : upToClosing depth t = some (inner, rest)) :
    inner.count ']' = depth + inner.count '[' ∧
      ∀ p, p <+: inner → p.count ']' ≤ depth + p.count '[' := by
  fun_induction upToClosing depth t generalizing inner with
  | case1 => simp at h
  | case2 depth t ih =>
    simp only [Option.map_eq_some_iff, Prod.mk.injEq] at h
    obtain ⟨⟨inner, rest⟩, found, rfl, rfl⟩ := h
    obtain ⟨count_eq, count_le⟩ := ih found
    refine ⟨by simp; omega, forall_prefix_cons (by simp) fun p hp => ?_⟩
    have := count_le p hp
    simp
    omega
  | case3 t =>
    simp only [Option.some.injEq, Prod.mk.injEq] at h
    obtain ⟨rfl, rfl⟩ := h
    exact ⟨rfl, by simp⟩
  | case4 _ t depth ih =>
    simp only [Option.map_eq_some_iff, Prod.mk.injEq] at h
    obtain ⟨⟨inner, rest⟩, found, rfl, rfl⟩ := h
    obtain ⟨count_eq, count_le⟩ := ih found
    refine ⟨by simp; omega, forall_prefix_cons (by simp) fun p hp => ?_⟩
    have := count_le p hp
    simp
    omega
  | case5 depth c t opening closing ih =>
    simp only [Option.map_eq_some_iff, Prod.mk.injEq] at h
    obtain ⟨⟨inner, rest⟩, found, rfl, rfl⟩ := h
    obtain ⟨count_eq, count_le⟩ := ih found
    refine ⟨by simp [opening, closing, count_eq], ?_⟩
    refine forall_prefix_cons (by simp) fun p hp => ?_
    simpa [List.count_cons, opening, closing] using count_le p hp

namespace Pass

variable {pass : Pass}

theorem sound_recognize (pass : Pass) : Sound pass.recognize := by
  cases pass with
  | damage => exact sound_damageBlock?
  | block => exact sound_block?
  | inline => exact sound_inline?

/-- What a recognizer accepts is spelled as its pass wants it. -/
theorem exists_spells_of_recognize {t : Text} {o : Occurrence} (h : pass.recognize t = some o) :
    ∃ name payload written following, Spells pass name payload written ∧
      t = written ++ following ∧ o = ⟨pass.form, name, payload, display? following⟩ := by
  cases pass with
  | damage =>
    simp only [recognize, damageBlock?, Option.bind_eq_bind, Option.bind_eq_some_iff,
      Option.pure_def, Option.some.injEq] at h
    obtain ⟨inside, h₁, ⟨payload, following⟩, h₂, rfl⟩ := h
    obtain ⟨count_eq, count_le⟩ := balanced_of_upToClosing h₂
    have balanced : payload.Balanced :=
      ⟨by simpa using count_eq.symm, by simpa using count_le⟩
    refine ⟨_, payload, _, following, .damage balanced, ?_, rfl⟩
    rw [Text.eq_of_after? h₁, eq_of_upToClosing h₂]
    simp
  | block =>
    simp only [recognize, block?, Option.bind_eq_bind, Option.bind_eq_some_iff,
      Option.pure_def, Option.some.injEq, Prod.exists] at h
    obtain ⟨_, h₁, name, _, h₂, _, h₃, payload, _, h₄, following, h₅, rfl⟩ := h
    obtain ⟨name_ne_nil, word⟩ := forall_mem_of_run? h₂
    obtain ⟨payload_ne_nil, closed⟩ := not_mem_of_run?_ne h₄
    refine ⟨name, payload, _, following, .block name_ne_nil word payload_ne_nil closed, ?_, rfl⟩
    rw [Text.eq_of_after? h₁, eq_of_run? h₂, Text.eq_of_after? h₃, eq_of_run? h₄,
      Text.eq_of_after? h₅]
    simp
  | inline =>
    simp only [recognize, inline?, Option.bind_eq_bind, Option.bind_eq_some_iff,
      Option.pure_def, Option.some.injEq, Prod.exists] at h
    obtain ⟨_, h₁, name, _, h₂, _, h₃, payload, _, h₄, following, h₅, rfl⟩ := h
    obtain ⟨name_ne_nil, word⟩ := forall_mem_of_run? h₂
    obtain ⟨payload_ne_nil, closed⟩ := not_mem_of_run?_ne h₄
    refine ⟨name, payload, _, following, .inline name_ne_nil word payload_ne_nil closed, ?_, rfl⟩
    rw [Text.eq_of_after? h₁, eq_of_run? h₂, Text.eq_of_after? h₃, eq_of_run? h₄,
      Text.eq_of_after? h₅]
    simp

end Pass

namespace Spells

variable {pass : Pass} {name payload written : Text}

/-- What is spelled as a pass wants it is accepted, with the display text that follows. -/
theorem recognize (h : Spells pass name payload written) (following : Text) :
    pass.recognize (written ++ following) =
      some ⟨pass.form, name, payload, display? following⟩ := by
  cases h with
  | damage balanced =>
    simpa [Pass.recognize, Pass.form] using damageBlock?_append balanced following
  | block name_ne_nil word payload_ne_nil closed =>
    simpa [Pass.recognize, Pass.form] using
      block?_append name_ne_nil word payload_ne_nil closed following
  | inline name_ne_nil word payload_ne_nil closed =>
    simpa [Pass.recognize, Pass.form] using
      inline?_append name_ne_nil word payload_ne_nil closed following

theorem text_eq (h : Spells pass name payload written) (display : Option Text) :
    (⟨pass.form, name, payload, display⟩ : Occurrence).text =
      written ++ displayText display := by
  cases h <;> simp [Occurrence.text, Pass.form]

/-- A directive that is spelled as its pass wants it is recognized as a whole. -/
theorem recognizes (h : Spells pass name payload written) (display : Option Text)
    (shown : ∀ d, display = some d → IsDisplay d) :
    Recognizes pass.recognize ⟨pass.form, name, payload, display⟩ := by
  intro rest unshown
  have read := h.recognize (displayText display ++ rest)
  rw [display?_displayText shown unshown] at read
  rw [h.text_eq, List.append_assoc, read]

end Spells

/-- A recognizer accepts exactly what is spelled as its pass wants it, and takes the
display text that follows. -/
theorem Pass.recognize_eq_some_iff {pass : Pass} {t : Text} {o : Occurrence} :
    pass.recognize t = some o ↔ ∃ name payload written following,
      Spells pass name payload written ∧ t = written ++ following ∧
        o = ⟨pass.form, name, payload, display? following⟩ := by
  constructor
  · exact exists_spells_of_recognize
  · rintro ⟨name, payload, written, following, spelled, rfl, rfl⟩
    exact spelled.recognize following

/-! ### Ranges -/

/-- A directive with the range of bytes where it stands in a text. -/
structure Placed where
  start : Nat
  stop : Nat
  occurrence : Occurrence

/-- The directives of a scanned text whose first byte is at `offset`. -/
def placed (offset : Nat) : List Piece → List Placed
  | [] => []
  | .plain c :: pieces => placed (offset + c.utf8Size) pieces
  | .directive o :: pieces =>
    ⟨offset, offset + o.text.utf8Size, o⟩ :: placed (offset + o.text.utf8Size) pieces

/-- The directives that a pass finds in a text. -/
def found (pass : Pass) (t : Text) : List Placed :=
  placed 0 (scan pass.recognize t)

namespace Placed

/-- The directive is written between the text `before` and the text `following`, up to a
display text that `following` begins with: if it begins with one, that belongs to the
directive, and else the directive has none. -/
structure StandsAt (pass : Pass) (t : Text) (p : Placed) (before written following : Text) :
    Prop where
  text_eq : t = before ++ (written ++ following)
  start_eq : p.start = before.utf8Size
  stop_eq : p.stop = p.start + p.occurrence.text.utf8Size
  spells : Spells pass p.occurrence.name p.occurrence.payload written
  occurrence_text : p.occurrence.text = written ++ displayText p.occurrence.display
  display_iff : ∀ d, p.occurrence.display = some d ↔
    IsDisplay d ∧ ∃ rest, following = displayText (some d) ++ rest

end Placed

section Ranges

variable {recognize : Text → Option Occurrence}

/-- What is found at a range has been recognized where the range starts. -/
theorem exists_of_mem_placed (sound : Sound recognize) {t : Text} {offset : Nat} {p : Placed}
    (h : p ∈ placed offset (scan recognize t)) :
    ∃ before rest, t = before ++ (p.occurrence.text ++ rest) ∧
      recognize (p.occurrence.text ++ rest) = some p.occurrence ∧
      p.start = offset + before.utf8Size ∧ p.stop = p.start + p.occurrence.text.utf8Size := by
  fun_induction scan recognize t generalizing offset with
  | case1 => cases h
  | case2 c cs o recognized ih =>
    obtain ⟨rest, split⟩ := sound _ _ recognized
    rw [split] at recognized
    rw [split, List.drop_left] at ih h
    obtain rfl | later := List.mem_cons.mp h
    · exact ⟨[], rest, split, recognized, rfl, rfl⟩
    · obtain ⟨before, rest', rfl, recognized', start_eq, stop_eq⟩ := ih later
      refine ⟨o.text ++ before, rest', ?_, recognized', ?_, stop_eq⟩
      · rw [split, List.append_assoc]
      · rw [start_eq, Text.utf8Size_append, Nat.add_assoc]
  | case3 c cs _ ih =>
    obtain ⟨before, rest, rfl, recognized, start_eq, stop_eq⟩ := ih h
    refine ⟨c :: before, rest, rfl, recognized, ?_, stop_eq⟩
    rw [start_eq, Text.utf8Size_cons, Nat.add_assoc]

theorem map_occurrence_placed (offset : Nat) (pieces : List Piece) :
    (placed offset pieces).map Placed.occurrence = occurrences pieces := by
  induction pieces generalizing offset with
  | nil => rfl
  | cons piece pieces ih =>
    cases piece with
    | plain c => exact ih _
    | directive o => exact congrArg (o :: ·) (ih _)

theorem le_start_of_mem_placed {pieces : List Piece} {offset : Nat} {p : Placed}
    (h : p ∈ placed offset pieces) : offset ≤ p.start := by
  induction pieces generalizing offset with
  | nil => cases h
  | cons piece pieces ih =>
    cases piece with
    | plain c => exact Nat.le_trans (Nat.le_add_right _ _) (ih h)
    | directive o =>
      obtain rfl | later := List.mem_cons.mp h
      · exact Nat.le_refl _
      · exact Nat.le_trans (Nat.le_add_right _ _) (ih later)

theorem pairwise_placed (offset : Nat) (pieces : List Piece) :
    (placed offset pieces).Pairwise fun p q => p.stop ≤ q.start := by
  induction pieces generalizing offset with
  | nil => exact .nil
  | cons piece pieces ih =>
    cases piece with
    | plain c => exact ih _
    | directive o => exact .cons (fun _ later => le_start_of_mem_placed later) (ih _)

/-- Wherever a directive could be recognized there is a range: that of the directive, or
of one that starts before it and ends behind its start. -/
theorem exists_mem_placed (sound : Sound recognize) {t before rest : Text} {o : Occurrence}
    (split : t = before ++ rest) (recognized : recognize rest = some o) (offset : Nat) :
    ∃ p ∈ placed offset (scan recognize t),
      p.start ≤ offset + before.utf8Size ∧ offset + before.utf8Size < p.stop := by
  fun_induction scan recognize t generalizing before offset with
  | case1 =>
    obtain ⟨_, rfl⟩ := sound _ _ recognized
    have empty := congrArg List.length split
    have := o.length_text_pos
    simp only [List.length_nil, List.length_append] at empty
    omega
  | case2 c cs first here ih =>
    obtain ⟨tail, whole⟩ := sound _ _ here
    rw [whole, List.drop_left] at ih ⊢
    rw [whole] at split
    obtain ⟨more, rfl, rfl⟩ | ⟨more, inside, rfl⟩ := List.append_eq_append_iff.mp split
    · obtain ⟨p, hp, start_le, lt_stop⟩ := ih rfl (offset + first.text.utf8Size)
      rw [Text.utf8Size_append, ← Nat.add_assoc]
      exact ⟨p, List.mem_cons_of_mem _ hp, start_le, lt_stop⟩
    · by_cases behind : more = []
      · subst behind
        have at_front : tail = [] ++ ([] ++ tail) := rfl
        obtain ⟨p, hp, start_le, lt_stop⟩ := ih at_front (offset + first.text.utf8Size)
        rw [List.append_nil] at inside
        rw [← inside]
        exact ⟨p, List.mem_cons_of_mem _ hp, start_le, lt_stop⟩
      · have := Text.utf8Size_pos behind
        refine ⟨_, List.mem_cons_self, Nat.le_add_right _ _, ?_⟩
        change _ < offset + first.text.utf8Size
        rw [inside, Text.utf8Size_append]
        omega
  | case3 c cs none ih =>
    cases before with
    | nil =>
      rw [List.nil_append] at split
      rw [split, recognized] at none
      cases none
    | cons d before =>
      obtain ⟨rfl, rfl⟩ : c = d ∧ cs = before ++ rest := by simpa using split
      obtain ⟨p, hp, start_le, lt_stop⟩ := ih rfl (offset + c.utf8Size)
      rw [Text.utf8Size_cons, ← Nat.add_assoc]
      exact ⟨p, hp, start_le, lt_stop⟩

end Ranges

/-! ### Replacing what has been found -/

/-- The text in which the directives at the given ranges are replaced by results: what
stands before, between and behind the ranges is copied from the text, from the byte
`last` on. -/
def rebuild (t : Text) (last : Nat) : List (Placed × Text) → Text
  | [] => t.slice last t.utf8Size
  | (p, result) :: more => t.slice last p.start ++ result ++ rebuild t p.stop more

/-- Replacing resolves the directives in order and copies the text between the ranges.
Here the pieces are those behind the text `before ++ gap`, of which `gap` has not been
copied yet. -/
theorem replaceAll_eq_rebuild {m : Type → Type} [Monad m] [LawfulMonad m]
    (resolve : Occurrence → m Text) {t before gap : Text} {pieces : List Piece}
    (split : t = before ++ (gap ++ pieces.flatMap Piece.text)) :
    (gap ++ ·) <$> replaceAll resolve pieces =
      (fun results => rebuild t before.utf8Size
          ((placed (before.utf8Size + gap.utf8Size) pieces).zip results)) <$>
        (placed (before.utf8Size + gap.utf8Size) pieces).mapM fun p => resolve p.occurrence := by
  induction pieces generalizing before gap with
  | nil =>
    have rest := Text.slice_append before gap []
    have size : t.utf8Size = before.utf8Size + gap.utf8Size := by simp [split]
    simp only [List.flatMap_nil] at split
    rw [← split, ← size] at rest
    simp only [replaceAll, placed, List.mapM_nil, map_pure, List.zip_nil_left, rebuild, rest,
      List.append_nil]
  | cons piece pieces ih =>
    cases piece with
    | plain c =>
      have copying : t = before ++ ((gap ++ [c]) ++ pieces.flatMap Piece.text) := by
        simpa [Piece.text] using split
      have ih := ih copying
      rw [placed]
      simp only [Text.utf8Size_append, Text.utf8Size_cons, Text.utf8Size_nil, Nat.add_zero,
        ← Nat.add_assoc] at ih
      rw [← ih]
      simp [replaceAll]
    | directive o =>
      have behind : t = (before ++ (gap ++ o.text)) ++ ([] ++ pieces.flatMap Piece.text) := by
        simpa [Piece.text] using split
      have ih := ih behind
      have copied : t.slice before.utf8Size (before.utf8Size + gap.utf8Size) = gap := by
        rw [split]
        exact Text.slice_append before gap _
      simp only [Text.utf8Size_append, Text.utf8Size_nil, Nat.add_zero, ← Nat.add_assoc,
        List.nil_append, id_map'] at ih
      rw [placed, List.mapM_cons, replaceAll, ih]
      simp [rebuild, copied]

/-- Directives that become what they were leave the text as it was. -/
theorem replaceAll_text {m : Type → Type} [Monad m] [LawfulMonad m] (pieces : List Piece) :
    replaceAll (fun o => (pure o.text : m Text)) pieces = pure (pieces.flatMap Piece.text) := by
  induction pieces with
  | nil => rfl
  | cons piece pieces ih => cases piece <;> simp [replaceAll, ih, Piece.text]

/-- Replacing what a pass finds copies all that is outside its ranges. -/
theorem replaceAll_scan_eq_rebuild {m : Type → Type} [Monad m] [LawfulMonad m] (pass : Pass)
    (t : Text) (resolve : Occurrence → m Text) :
    replaceAll resolve (scan pass.recognize t) =
      (fun results => rebuild t 0 ((found pass t).zip results)) <$>
        (found pass t).mapM fun p => resolve p.occurrence := by
  have split : t = [] ++ ([] ++ (scan pass.recognize t).flatMap Piece.text) :=
    (scan_text pass.sound_recognize t).symm
  simpa [found] using replaceAll_eq_rebuild resolve split

/-- Where nothing is found nothing is replaced. -/
theorem replaceAll_of_found_eq_nil {m : Type → Type} [Monad m] [LawfulMonad m] {pass : Pass}
    {t : Text} (none_found : found pass t = []) (resolve : Occurrence → m Text) :
    replaceAll resolve (scan pass.recognize t) = pure t := by
  rw [replaceAll_scan_eq_rebuild, none_found]
  simp [rebuild, Text.slice_all]

/-! ### The scan as a whole -/

theorem exists_standsAt_of_mem_found {pass : Pass} {t : Text} {p : Placed}
    (h : p ∈ found pass t) :
    ∃ before written following, p.StandsAt pass t before written following := by
  obtain ⟨before, rest, split, recognized, start_eq, stop_eq⟩ :=
    exists_of_mem_placed pass.sound_recognize h
  obtain ⟨name, payload, written, following, spelled, spelling, whole⟩ :=
    Pass.exists_spells_of_recognize recognized
  refine ⟨before, written, following, ?_, ?_, stop_eq, ?_, ?_, ?_⟩
  · rw [split, spelling]
  · rw [start_eq, Nat.zero_add]
  · rw [whole]
    exact spelled
  · rw [whole]
    exact spelled.text_eq _
  · intro d
    rw [whole]
    exact display?_eq_some_iff

theorem exists_mem_found_of_spells {pass : Pass} {name payload before written following : Text}
    (spelled : Spells pass name payload written) :
    ∃ p ∈ found pass (before ++ (written ++ following)),
      p.start ≤ before.utf8Size ∧ before.utf8Size < p.stop := by
  obtain ⟨p, hp, start_le, lt_stop⟩ :=
    exists_mem_placed pass.sound_recognize rfl (spelled.recognize following) 0
  rw [Nat.zero_add] at start_le lt_stop
  exact ⟨p, hp, start_le, lt_stop⟩

/-- Nothing is found exactly where nothing is spelled as the pass wants it. -/
theorem found_eq_nil_iff {pass : Pass} {t : Text} :
    found pass t = [] ↔ ∀ name payload before written following,
      Spells pass name payload written → t ≠ before ++ (written ++ following) := by
  constructor
  · rintro none_found name payload before written following spelled rfl
    obtain ⟨p, hp, -⟩ := exists_mem_found_of_spells spelled
    rw [none_found] at hp
    cases hp
  · intro unspelled
    refine List.eq_nil_iff_forall_not_mem.mpr ?_
    intro p hp
    obtain ⟨before, written, following, stands⟩ := exists_standsAt_of_mem_found hp
    exact unspelled _ _ before written following stands.spells stands.text_eq

theorem found_eq_nil_of_silent {pass : Pass} {t : Text} (silent : Silent pass.recognize t) :
    found pass t = [] := by
  refine List.eq_nil_iff_forall_not_mem.mpr ?_
  intro p hp
  obtain ⟨before, rest, rfl, recognized, -⟩ := exists_of_mem_placed pass.sound_recognize hp
  have nonempty : p.occurrence.text ++ rest ≠ [] :=
    List.ne_nil_of_length_pos (by have := p.occurrence.length_text_pos; simp; omega)
  have unrecognized := silent _ [] (List.suffix_append before _) nonempty
  rw [List.append_nil, recognized] at unrecognized
  cases unrecognized

/-- A scan is sound, complete and lossless.

What a pass finds stands at ranges that are not empty, lie in the text and follow each
other without overlaps; the directive at a range is the slice of the text there, is
spelled as the pass wants it, and has a display text exactly if one follows. Every place
where a directive of the pass is spelled lies in one of the ranges. Putting every
directive in its own place gives the text back, and in general replacing directives
copies all that is outside the ranges. -/
theorem found_sound_and_complete (pass : Pass) (t : Text) :
    (found pass t).map Placed.occurrence = occurrences (scan pass.recognize t) ∧
    (∀ p ∈ found pass t, p.start < p.stop ∧ p.stop ≤ t.utf8Size ∧
      p.occurrence.text = t.slice p.start p.stop ∧
      ∃ before written following, p.StandsAt pass t before written following) ∧
    (found pass t).Pairwise (fun p q => p.stop ≤ q.start) ∧
    (∀ name payload before written following, Spells pass name payload written →
      t = before ++ (written ++ following) →
      ∃ p ∈ found pass t, p.start ≤ before.utf8Size ∧ before.utf8Size < p.stop) ∧
    replaceAll (fun o => pure o.text) (scan pass.recognize t) = (pure t : Resolve Text) ∧
    ∀ resolve : Occurrence → Resolve Text,
      replaceAll resolve (scan pass.recognize t) =
        (fun results => rebuild t 0 ((found pass t).zip results)) <$>
          (found pass t).mapM fun p => resolve p.occurrence := by
  have sound := pass.sound_recognize
  refine ⟨map_occurrence_placed 0 _, ?_, pairwise_placed 0 _, ?_, ?_,
    replaceAll_scan_eq_rebuild pass t⟩
  · intro p hp
    obtain ⟨before, rest, split, -, start_eq, stop_eq⟩ := exists_of_mem_placed sound hp
    have nonempty := Text.utf8Size_pos (List.ne_nil_of_length_pos p.occurrence.length_text_pos)
    have slice := Text.slice_append before p.occurrence.text rest
    rw [Nat.zero_add] at start_eq
    rw [← split, ← start_eq, ← stop_eq] at slice
    refine ⟨by omega, ?_, slice.symm, exists_standsAt_of_mem_found hp⟩
    rw [split, Text.utf8Size_append, Text.utf8Size_append]
    omega
  · rintro name payload before written following spelled rfl
    exact exists_mem_found_of_spells spelled
  · rw [replaceAll_text, scan_text sound]

end Directive

end RuleText
