import Mathlib.Data.List.Infix
import RuleText.Directive.Occurrence

/-!
# Directives inside a longer text

A scan asks at every place whether a directive starts there. Two facts about a
stretch of text decide what a scan makes of it, whatever stands behind it: either
the stretch is a directive that is recognized as a whole, or it is silent, which
means that no directive starts at any of its places.

Silence is kept by putting stretches together (`Silent.append`), so that it is
shown for the parts of a directive one by one. A block starts at an `@` with a
word and an opening bracket behind it; a payload without brackets cannot have one
inside, because its closing bracket comes first.
-/

namespace RuleText

namespace Text

/-- The characters that delimit directives and lines. -/
def markupChars : List Char := ['@', '[', ']', '\x7b', '\x7d', '\n']

/-- A text without delimiters, in which no directive can start or end. -/
def Plain (t : Text) : Prop :=
  ∀ c ∈ t, c ∉ markupChars

instance (t : Text) : Decidable (Plain t) :=
  List.decidableBAll _ t

theorem plain_append {s t : Text} : Plain (s ++ t) ↔ Plain s ∧ Plain t := by
  simp only [Plain, List.mem_append, or_imp, forall_and]

theorem plain_cons {c : Char} {t : Text} : Plain (c :: t) ↔ c ∉ markupChars ∧ Plain t := by
  simp only [Plain, List.mem_cons, forall_eq_or_imp]

theorem Plain.not_mem {t : Text} (h : Plain t) {c : Char} (hc : c ∈ markupChars) : c ∉ t :=
  fun ht => h c ht hc

/-- Every opening bracket is closed, and no bracket is closed before it is opened. -/
structure Balanced (t : Text) : Prop where
  count_eq : t.count '[' = t.count ']'
  count_le : ∀ p, p <+: t → p.count ']' ≤ p.count '['

theorem balanced_of_not_mem {t : Text} (opening : '[' ∉ t) (closing : ']' ∉ t) : Balanced t where
  count_eq := by rw [List.count_eq_zero.mpr opening, List.count_eq_zero.mpr closing]
  count_le p hp := by
    rw [List.count_eq_zero.mpr fun mem => closing (hp.subset mem)]
    exact Nat.zero_le _

instance (t : Text) : Decidable (Balanced t) :=
  decidable_of_iff (t.count '[' = t.count ']' ∧ ∀ p ∈ t.inits, p.count ']' ≤ p.count '[')
    ⟨fun h => ⟨h.1, fun p hp => h.2 p ((List.mem_inits p t).mpr hp)⟩,
      fun h => ⟨h.count_eq, fun p hp => h.count_le p ((List.mem_inits p t).mp hp)⟩⟩

end Text

namespace Directive

/-! ### Reading one part after the other -/

theorem dropWhile_append_stop {p : Char → Bool} {run : Text} (inside : ∀ c ∈ run, p c = true)
    {stop : Char} (outside : p stop = false) (rest : Text) :
    (run ++ stop :: rest).dropWhile p = stop :: rest := by
  rw [List.dropWhile_append_of_pos inside, List.dropWhile_cons_of_neg (by simp [outside])]

theorem run?_append {p : Char → Bool} {run : Text} (nonempty : run ≠ [])
    (inside : ∀ c ∈ run, p c = true) (stop : Char) (outside : p stop = false) (rest : Text) :
    run? p (run ++ stop :: rest) = some (run, stop :: rest) := by
  have taken : (run ++ stop :: rest).takeWhile p = run := by
    rw [List.takeWhile_append_of_pos inside, List.takeWhile_cons_of_neg (by simp [outside]),
      List.append_nil]
  rw [run?, taken, dropWhile_append_stop inside outside, if_neg nonempty]

/-- Reading up to a delimiter. -/
theorem run?_ne_append {run : Text} {stop : Char} (nonempty : run ≠ []) (closed : stop ∉ run)
    (rest : Text) : run? (· ≠ stop) (run ++ stop :: rest) = some (run, stop :: rest) := by
  refine run?_append nonempty (fun c hc => ?_) stop ?_ rest
  · exact decide_eq_true (fun h => closed (h ▸ hc))
  · exact decide_eq_false (fun h => h rfl)

theorem after?_eq_none_of_head {c : Char} {t : Text} (h : t.head? ≠ some c) (lead : Text) :
    Text.after? (c :: lead) t = none := by
  cases t with
  | nil => rfl
  | cons d t =>
    have hd : c ≠ d := by
      rintro rfl
      exact h rfl
    rw [Text.after?, if_neg hd]

/-- A display text is read back, and a directive without one takes none from what
follows, unless a brace opens there. -/
theorem display?_displayText {display : Option Text} {rest : Text}
    (shown : ∀ d, display = some d → d ≠ [] ∧ '\x7d' ∉ d)
    (unshown : display = none → rest.head? ≠ some '\x7b') :
    display? (displayText display ++ rest) = display := by
  cases display with
  | none =>
    rw [display?, displayText, List.nil_append, after?_eq_none_of_head (unshown rfl)]
    rfl
  | some d =>
    obtain ⟨nonempty, closed⟩ := shown d rfl
    have split : displayText (some d) ++ rest = '\x7b' :: (d ++ '\x7d' :: rest) := by
      simp [displayText]
    simp only [display?, split, Text.after?, if_true, Option.bind_eq_bind, Option.bind_some,
      run?_ne_append nonempty closed, Option.pure_def]

/-- A closing bracket is found behind balanced text, also when brackets before the
text are still open. The counts are those of the text that is left. -/
theorem upToClosing_append (depth : Nat) {inner : Text}
    (count_eq : inner.count ']' = depth + inner.count '[')
    (count_le : ∀ p, p <+: inner → p.count ']' ≤ depth + p.count '[') (rest : Text) :
    upToClosing depth (inner ++ ']' :: rest) = some (inner, rest) := by
  induction inner generalizing depth with
  | nil =>
    obtain rfl : depth = 0 := by simpa using count_eq.symm
    rfl
  | cons c t ih =>
    have tail_le : ∀ p, p <+: t → (c :: p).count ']' ≤ depth + (c :: p).count '[' :=
      fun p hp => count_le (c :: p) (List.cons_prefix_cons.mpr ⟨rfl, hp⟩)
    by_cases opening : c = '['
    · subst opening
      have h := ih (depth + 1) (by simpa [Nat.add_right_comm, Nat.add_assoc] using count_eq)
        (fun p hp => by simpa [Nat.add_right_comm, Nat.add_assoc] using tail_le p hp)
      rw [List.cons_append, upToClosing.eq_def]
      simp only [if_true, h, Option.map_some]
    · by_cases closing : c = ']'
      · subst closing
        cases depth with
        | zero => simpa using tail_le [] (List.nil_prefix)
        | succ depth =>
          have h := ih depth (by simp at count_eq; omega)
            (fun p hp => by have := tail_le p hp; simp at this; omega)
          rw [List.cons_append, upToClosing, if_neg opening, if_pos rfl]
          simp only [h, Option.map_some]
      · have h := ih depth (by simpa [List.count_cons, opening, closing] using count_eq)
          (fun p hp => by simpa [List.count_cons, opening, closing] using tail_le p hp)
        rw [List.cons_append, upToClosing.eq_def]
        simp only [if_neg opening, if_neg closing, h, Option.map_some]

/-! ### Recognized by their parts -/

section Parts

variable {name payload : Text}

theorem not_mem_of_word (word : ∀ c ∈ name, Text.isWord c = true) {c : Char}
    (hc : Text.isWord c = false) : c ∉ name := by
  intro mem
  rw [word c mem] at hc
  cases hc

theorem damageBlock?_append (balanced : payload.Balanced) (rest : Text) :
    damageBlock? ("@Damage[".toList ++ (payload ++ ']' :: rest)) =
      some ⟨.block, "Damage".toList, payload, display? rest⟩ := by
  have closes := upToClosing_append 0 (by simpa using balanced.count_eq.symm)
    (by simpa using balanced.count_le) rest
  simp only [damageBlock?, Text.after?_append, Option.bind_eq_bind, Option.bind_some, closes,
    Option.pure_def]

theorem block?_append (name_ne_nil : name ≠ []) (word : ∀ c ∈ name, Text.isWord c = true)
    (payload_ne_nil : payload ≠ []) (closed : ']' ∉ payload) (rest : Text) :
    block? ('@' :: (name ++ '[' :: (payload ++ ']' :: rest))) =
      some ⟨.block, name, payload, display? rest⟩ := by
  have named := run?_append name_ne_nil word '[' (Text.isWord_of_delimiter (by decide))
    (payload ++ ']' :: rest)
  simp only [block?, Text.after?, if_true, Option.bind_eq_bind, Option.bind_some, named,
    run?_ne_append payload_ne_nil closed, Option.pure_def]

theorem inline?_append (name_ne_nil : name ≠ []) (word : ∀ c ∈ name, Text.isWord c = true)
    (payload_ne_nil : payload ≠ []) (closed : ']' ∉ payload) (rest : Text) :
    inline? ("[[/".toList ++ (name ++ ' ' :: (payload ++ ("]]".toList ++ rest)))) =
      some ⟨.inline, name, payload, display? rest⟩ := by
  have named := run?_append name_ne_nil word ' ' (Text.isWord_of_delimiter (by decide))
    (payload ++ ("]]".toList ++ rest))
  have read : run? (· ≠ ']') (payload ++ ("]]".toList ++ rest)) =
      some (payload, "]]".toList ++ rest) :=
    run?_ne_append payload_ne_nil closed (']' :: rest)
  simp only [inline?, Text.after?_append, Text.after?, if_true, Option.bind_eq_bind,
    Option.bind_some, named, read, Option.pure_def]

end Parts

/-! ### Directives as they should be written -/

namespace Occurrence

/-- A damage block, whose payload may hold brackets. -/
def IsDamage (o : Occurrence) : Prop :=
  o.form = .block ∧ o.name = "Damage".toList

instance (o : Occurrence) : Decidable o.IsDamage :=
  inferInstanceAs (Decidable (_ ∧ _))

theorem not_isDamage_of_inline {o : Occurrence} (inline : o.form = .inline) : ¬ o.IsDamage := by
  rintro ⟨block, -⟩
  rw [inline] at block
  cases block

/-- A name of word characters, a payload on one line without braces, whose brackets
are those of a damage block or absent, and a plain display text if any. -/
structure WellFormed (o : Occurrence) : Prop where
  name_ne_nil : o.name ≠ []
  name_word : ∀ c ∈ o.name, Text.isWord c = true
  payload_ne_nil : o.payload ≠ []
  payload_line : '\n' ∉ o.payload
  payload_braces : '\x7b' ∉ o.payload ∧ '\x7d' ∉ o.payload
  payload_brackets : ('[' ∉ o.payload ∧ ']' ∉ o.payload) ∨ (o.IsDamage ∧ o.payload.Balanced)
  display_plain : ∀ d, o.display = some d → d ≠ [] ∧ d.Plain

namespace WellFormed

variable {o : Occurrence}

theorem balanced (h : o.WellFormed) : o.payload.Balanced := by
  obtain ⟨opening, closing⟩ | ⟨_, balanced⟩ := h.payload_brackets
  · exact Text.balanced_of_not_mem opening closing
  · exact balanced

theorem no_brackets (h : o.WellFormed) (other : ¬ o.IsDamage) :
    '[' ∉ o.payload ∧ ']' ∉ o.payload :=
  h.payload_brackets.resolve_right fun damage => other damage.1

theorem not_mem_name (h : o.WellFormed) {c : Char} (hc : Text.isWord c = false) : c ∉ o.name :=
  not_mem_of_word h.name_word hc

theorem display?_append (h : o.WellFormed) {rest : Text}
    (unshown : o.display = none → rest.head? ≠ some '\x7b') :
    display? (displayText o.display ++ rest) = o.display := by
  apply display?_displayText _ unshown
  intro d hd
  obtain ⟨nonempty, plain⟩ := h.display_plain d hd
  exact ⟨nonempty, plain.not_mem (by decide)⟩

end WellFormed

end Occurrence

/-! ### Recognized as a whole -/

/-- The directive is recognized wherever it stands, if no text follows that would be
taken for its display text. -/
def Recognizes (recognize : Text → Option Occurrence) (o : Occurrence) : Prop :=
  ∀ rest : Text, (o.display = none → rest.head? ≠ some '\x7b') →
    recognize (o.text ++ rest) = some o

variable {recognize : Text → Option Occurrence} {o : Occurrence}

theorem recognizes_damageBlock? (h : o.WellFormed) (damage : o.IsDamage) :
    Recognizes damageBlock? o := by
  intro rest unshown
  have shown := h.display?_append unshown
  have balanced := h.balanced
  obtain ⟨form, name, payload, display⟩ := o
  obtain ⟨rfl, rfl⟩ : form = .block ∧ name = "Damage".toList := damage
  have split : (Occurrence.text ⟨.block, "Damage".toList, payload, display⟩) ++ rest =
      "@Damage[".toList ++ (payload ++ ']' :: (displayText display ++ rest)) := by
    simp [Occurrence.text]
  rw [split, damageBlock?_append balanced, shown]

theorem recognizes_block? (h : o.WellFormed) (block : o.form = .block) (other : ¬ o.IsDamage) :
    Recognizes block? o := by
  intro rest unshown
  have split : o.text ++ rest =
      '@' :: (o.name ++ '[' :: (o.payload ++ ']' :: (displayText o.display ++ rest))) := by
    simp [Occurrence.text, block]
  rw [split, block?_append h.name_ne_nil h.name_word h.payload_ne_nil (h.no_brackets other).2,
    h.display?_append unshown, ← block]

theorem recognizes_inline? (h : o.WellFormed) (inline : o.form = .inline) :
    Recognizes inline? o := by
  intro rest unshown
  have other := Occurrence.not_isDamage_of_inline inline
  have split : o.text ++ rest = "[[/".toList ++
      (o.name ++ ' ' :: (o.payload ++ ("]]".toList ++ (displayText o.display ++ rest)))) := by
    simp [Occurrence.text, inline]
  rw [split, inline?_append h.name_ne_nil h.name_word h.payload_ne_nil (h.no_brackets other).2,
    h.display?_append unshown, ← inline]

/-! ### Silent stretches -/

/-- Nothing is recognized at any place of the text, whatever stands behind it. -/
def Silent (recognize : Text → Option Occurrence) (a : Text) : Prop :=
  ∀ s rest, s <:+ a → s ≠ [] → recognize (s ++ rest) = none

theorem Silent.append {a b : Text} (ha : Silent recognize a) (hb : Silent recognize b) :
    Silent recognize (a ++ b) := by
  intro s rest hs nonempty
  obtain ⟨before, hs⟩ := hs
  rcases List.append_eq_append_iff.mp hs with ⟨t, rfl, rfl⟩ | ⟨t, rfl, rfl⟩
  · by_cases empty : t = []
    · subst empty
      exact hb b rest (List.suffix_refl b) nonempty
    · rw [List.append_assoc]
      exact ha t (b ++ rest) (List.suffix_append before t) empty
  · exact hb s rest (List.suffix_append t s) nonempty

theorem Silent.cons {c : Char} {a : Text} (first : ∀ rest, recognize (c :: (a ++ rest)) = none)
    (ha : Silent recognize a) : Silent recognize (c :: a) := by
  intro s rest hs nonempty
  rcases List.suffix_cons_iff.mp hs with rfl | inside
  · exact first rest
  · exact ha s rest inside nonempty

/-- A recognizer that looks for a character first. -/
def StartsWith (recognize : Text → Option Occurrence) (c : Char) : Prop :=
  ∀ t o, recognize t = some o → t.head? = some c

theorem StartsWith.silent {c : Char} (starts : StartsWith recognize c) {a : Text} (h : c ∉ a) :
    Silent recognize a := by
  intro s rest hs nonempty
  rw [Option.eq_none_iff_forall_ne_some]
  intro o found
  obtain ⟨d, s, rfl⟩ := List.exists_cons_of_ne_nil nonempty
  obtain rfl : d = c := by simpa using starts _ o found
  exact h (hs.subset List.mem_cons_self)

theorem startsWith_inline? : StartsWith inline? '[' := by
  intro t o found
  simp only [inline?, Option.bind_eq_bind, Option.bind_eq_some_iff] at found
  obtain ⟨rest, h, -⟩ := found
  rw [Text.eq_of_after? h]
  rfl

/-- A recognizer that looks for an `@`, a word and an opening bracket. -/
def OpensBlock (recognize : Text → Option Occurrence) : Prop :=
  ∀ t o, recognize t = some o →
    ∃ v, t = '@' :: v ∧ (v.dropWhile Text.isWord).head? = some '['

theorem opensBlock_damageBlock? : OpensBlock damageBlock? := by
  intro t o found
  simp only [damageBlock?, Option.bind_eq_bind, Option.bind_eq_some_iff] at found
  obtain ⟨rest, h, -⟩ := found
  refine ⟨"Damage".toList ++ '[' :: rest, Text.eq_of_after? h, ?_⟩
  rw [dropWhile_append_stop (List.all_eq_true.mp (by decide)) (by decide)]
  rfl

theorem opensBlock_block? : OpensBlock block? := by
  intro t o found
  simp only [block?, Option.bind_eq_bind, Option.bind_eq_some_iff] at found
  obtain ⟨v, h₁, ⟨name, rest⟩, h₂, inside, h₃, -⟩ := found
  refine ⟨v, Text.eq_of_after? h₁, ?_⟩
  have dropped : v.dropWhile Text.isWord = rest := by
    by_cases empty : v.takeWhile Text.isWord = []
    · simp [run?, empty] at h₂
    · simp only [run?, if_neg empty, Option.some.injEq, Prod.mk.injEq] at h₂
      exact h₂.2
  have opening : rest = ['['] ++ inside := Text.eq_of_after? h₃
  rw [dropped, opening]
  rfl

theorem OpensBlock.startsWith (opens : OpensBlock recognize) : StartsWith recognize '@' := by
  intro t o found
  obtain ⟨v, rfl, -⟩ := opens t o found
  rfl

theorem head?_dropWhile_ne {p : Text} (h : '[' ∉ p) (rest : Text) :
    ((p ++ ']' :: rest).dropWhile Text.isWord).head? ≠ some '[' := by
  induction p with
  | nil =>
    rw [List.nil_append, List.dropWhile_cons_of_neg (by decide), List.head?_cons]
    decide
  | cons c p ih =>
    obtain ⟨hc, hp⟩ : '[' ≠ c ∧ '[' ∉ p := by simpa using h
    by_cases word : Text.isWord c
    · rw [List.cons_append, List.dropWhile_cons_of_pos word]
      exact ih hp
    · rw [List.cons_append, List.dropWhile_cons_of_neg word]
      simpa using Ne.symm hc

/-- No block opens in text without opening brackets up to the bracket that closes it. -/
theorem OpensBlock.silent_payload (opens : OpensBlock recognize) {p : Text} (h : '[' ∉ p) :
    Silent recognize (p ++ [']']) := by
  induction p with
  | nil => exact opens.startsWith.silent (by decide)
  | cons c p ih =>
    have hp : '[' ∉ p := fun mem => h (List.mem_cons_of_mem c mem)
    refine Silent.cons (fun rest => ?_) (ih hp)
    rw [Option.eq_none_iff_forall_ne_some]
    intro o found
    obtain ⟨v, hv, bracket⟩ := opens _ o found
    obtain ⟨-, rfl⟩ : c = '@' ∧ p ++ ']' :: rest = v := by simpa using hv
    exact head?_dropWhile_ne hp rest bracket

theorem not_mem_displayText (h : o.WellFormed) {c : Char} (hc : c ∈ Text.markupChars)
    (opening : c ≠ '\x7b') (closing : c ≠ '\x7d') : c ∉ displayText o.display := by
  cases shown : o.display with
  | none => simp [displayText]
  | some d =>
    have plain := (h.display_plain d shown).2.not_mem hc
    simp [displayText, opening, closing, plain]

/-- A directive stands on one line. -/
theorem not_newline_mem_text (h : o.WellFormed) : '\n' ∉ o.text := by
  have name := h.not_mem_name (c := '\n') (by decide)
  have display := not_mem_displayText h (c := '\n') (by decide) (by decide) (by decide)
  cases form : o.form <;> simp [Occurrence.text, form, name, display, h.payload_line]

/-- Passes that look for blocks leave inline directives alone. -/
theorem OpensBlock.silent_inline (opens : OpensBlock recognize) (h : o.WellFormed)
    (inline : o.form = .inline) : Silent recognize o.text := by
  have other := Occurrence.not_isDamage_of_inline inline
  have lead : '@' ∉ "[[/".toList ++ o.name ++ [' '] := by
    simp [h.not_mem_name (c := '@') (Text.isWord_of_delimiter (by decide))]
  have last : '@' ∉ ']' :: displayText o.display := by
    simpa using not_mem_displayText h (c := '@') (by decide) (by decide) (by decide)
  have split : o.text = ("[[/".toList ++ o.name ++ [' ']) ++ (o.payload ++ [']']) ++
      (']' :: displayText o.display) := by
    simp [Occurrence.text, inline]
  rw [split]
  exact ((opens.startsWith.silent lead).append
    (opens.silent_payload (h.no_brackets other).1)).append (opens.startsWith.silent last)

/-- A block with another name is no damage block, and none opens inside it. -/
theorem silent_damageBlock?_of_name_ne {name payload : Text} (name_ne_nil : name ≠ [])
    (word : ∀ c ∈ name, Text.isWord c = true) (other : name ≠ "Damage".toList)
    (unopened : '[' ∉ payload) :
    Silent damageBlock? ('@' :: ((name ++ ['[']) ++ (payload ++ [']']))) := by
  have at_sign : '@' ∉ name ++ ['['] := by
    simp [not_mem_of_word word (c := '@') (Text.isWord_of_delimiter (by decide))]
  refine Silent.cons (fun rest => ?_) ((opensBlock_damageBlock?.startsWith.silent at_sign).append
    (opensBlock_damageBlock?.silent_payload unopened))
  rw [Option.eq_none_iff_forall_ne_some]
  intro found hfound
  simp only [damageBlock?, Option.bind_eq_bind, Option.bind_eq_some_iff] at hfound
  obtain ⟨inside, hinside, -⟩ := hfound
  -- Both names end at the first bracket, so they are the same.
  have same := Text.eq_of_after? hinside
  have read := run?_append name_ne_nil word '[' (Text.isWord_of_delimiter (by decide))
    (payload ++ [']'] ++ rest)
  have readDamage : run? Text.isWord ("Damage".toList ++ '[' :: inside) =
      some ("Damage".toList, '[' :: inside) :=
    run?_append (by decide) (List.all_eq_true.mp (by decide)) '[' (by decide) inside
  have tails : name ++ '[' :: (payload ++ [']'] ++ rest) = "Damage".toList ++ '[' :: inside := by
    simpa using same
  rw [tails, readDamage] at read
  obtain ⟨named, -⟩ : "Damage".toList = name ∧ _ := by simpa using read
  exact other named.symm

/-- The pass that looks for damage blocks leaves the other blocks alone. -/
theorem silent_damageBlock? (h : o.WellFormed) (block : o.form = .block) (other : ¬ o.IsDamage) :
    Silent damageBlock? o.text := by
  have last : '@' ∉ displayText o.display :=
    not_mem_displayText h (by decide) (by decide) (by decide)
  have split : o.text = '@' :: ((o.name ++ ['[']) ++ (o.payload ++ [']'])) ++
      displayText o.display := by
    simp [Occurrence.text, block]
  rw [split]
  exact (silent_damageBlock?_of_name_ne h.name_ne_nil h.name_word
    (fun named => other ⟨block, named⟩) (h.no_brackets other).1).append
    (opensBlock_damageBlock?.startsWith.silent last)

/-! ### Scanning stretch by stretch -/

/-- A silent stretch is scanned into its characters. -/
theorem scan_append_of_silent {a : Text} (silent : Silent recognize a) (rest : Text) :
    scan recognize (a ++ rest) = a.map Piece.plain ++ scan recognize rest := by
  induction a with
  | nil => rfl
  | cons c a ih =>
    have none := silent (c :: a) rest (List.suffix_refl _) (List.cons_ne_nil c a)
    have tail : Silent recognize a := fun s r hs => silent s r (hs.trans (List.suffix_cons c a))
    rw [List.cons_append] at none ⊢
    rw [scan, none]
    simp only [ih tail, List.map_cons, List.cons_append]

theorem scan_append_of_recognized {rest : Text} (found : recognize (o.text ++ rest) = some o) :
    scan recognize (o.text ++ rest) = .directive o :: scan recognize rest := by
  have dropped : (o.text ++ rest).drop o.text.length = rest := List.drop_left
  obtain ⟨c, cs, split⟩ := List.exists_cons_of_ne_nil (List.ne_nil_of_length_pos o.length_text_pos)
  rw [split, List.cons_append] at found dropped ⊢
  rw [scan, found]
  simp only [split, dropped]

/-- The characters between directives come out as they are. -/
theorem replaceAll_plain_append {m : Type → Type} [Monad m] [LawfulMonad m]
    (resolve : Occurrence → m Text) (a : Text) (pieces : List Piece) :
    replaceAll resolve (a.map Piece.plain ++ pieces) =
      (fun t => a ++ t) <$> replaceAll resolve pieces := by
  induction a with
  | nil => simp
  | cons c a ih =>
    rw [List.map_cons, List.cons_append, replaceAll, ih]
    simp

end Directive

end RuleText
