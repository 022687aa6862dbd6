import Mathlib.Computability.Language
import RuleText.Formula.Token

/-!
# Patterns of tokens

Each kind of tokens has a pattern, which is a regular language. The functions for the
classes of tokens give the longest beginning of a text with the pattern of the class
(`Longest`), also where a beginning that was read has to be given back, as for `2d` or
`@a.b.`.

A text has at most one pattern, except that dice without a count may also be a name
(`eq_of_mem_pattern`). No pattern has blanks.
-/

namespace RuleText.Formula

open Computability

/-! ### The patterns -/

/-- The characters from one up to another. -/
def Between (first last c : Char) : Prop :=
  first.toNat ≤ c.toNat ∧ c.toNat ≤ last.toNat

/-- Decimal digits. -/
def Digit (c : Char) : Prop :=
  Between '0' '9' c

/-- Letters and the underscore. -/
def NameStart (c : Char) : Prop :=
  Between 'A' 'Z' c ∨ Between 'a' 'z' c ∨ c = '_'

/-- Letters, the underscore and digits. -/
def NameChar (c : Char) : Prop :=
  NameStart c ∨ Digit c

instance (first last : Char) : DecidablePred (Between first last) :=
  fun _ => inferInstanceAs (Decidable (_ ∧ _))

instance : DecidablePred Digit := fun _ => inferInstanceAs (Decidable (Between _ _ _))

instance : DecidablePred NameStart := fun _ => inferInstanceAs (Decidable (_ ∨ _))

instance : DecidablePred NameChar := fun _ => inferInstanceAs (Decidable (_ ∨ _))

/-- The texts of one character that satisfies a condition. -/
def oneOf (p : Char → Prop) : Language Char :=
  {s | ∃ c, p c ∧ s = [c]}

/-- The text of one certain character. -/
def single (c : Char) : Language Char :=
  oneOf (· = c)

/-- The pattern of names. -/
def nameShape : Language Char :=
  oneOf NameStart * (oneOf NameChar)∗

/-- Names, each after a point. -/
def dottedShape : Language Char :=
  (single '.' * nameShape)∗

/-- Names with points between them. -/
def namesShape : Language Char :=
  nameShape * dottedShape

/-- The pattern of the tokens of a kind. -/
def Kind.pattern : Kind → Language Char
  | integer => oneOf Digit * (oneOf Digit)∗
  | dice => (oneOf Digit)∗ * single 'd' * (oneOf Digit * (oneOf Digit)∗)
  | name => nameShape
  | reference => single '@' * namesShape
  | leftParen => single '('
  | rightParen => single ')'
  | leftBracket => single '['
  | rightBracket => single ']'
  | comma => single ','
  | plus => single '+'
  | minus => single '-'
  | star => single '*'
  | slash => single '/'
  | unknown => 0

section Membership

variable {p q : Char → Prop} {c : Char} {s : Text}

theorem mem_single : s ∈ single c ↔ s = [c] := by
  constructor
  · rintro ⟨_, rfl, rfl⟩
    rfl
  · rintro rfl
    exact ⟨c, rfl, rfl⟩

theorem mem_kstar_oneOf : s ∈ (oneOf p)∗ ↔ ∀ c ∈ s, p c := by
  rw [Language.mem_kstar]
  constructor
  · rintro ⟨words, rfl, each⟩ c hc
    obtain ⟨word, mem, hc⟩ := List.mem_flatten.mp hc
    obtain ⟨d, hd, rfl⟩ := each word mem
    rwa [List.mem_singleton.mp hc]
  · intro h
    refine ⟨s.map fun c => [c], ?_, fun word mem => ?_⟩
    · rw [← List.flatMap_def, List.flatMap_singleton']
    · obtain ⟨c, hc, rfl⟩ := List.mem_map.mp mem
      exact ⟨c, h c hc, rfl⟩

theorem mem_oneOf_mul_kstar :
    s ∈ oneOf p * (oneOf q)∗ ↔ ∃ c t, s = c :: t ∧ p c ∧ ∀ d ∈ t, q d := by
  constructor
  · rintro ⟨_, ⟨c, hc, rfl⟩, t, ht, rfl⟩
    exact ⟨c, t, rfl, hc, mem_kstar_oneOf.mp ht⟩
  · rintro ⟨c, t, rfl, hc, ht⟩
    exact ⟨[c], ⟨c, hc, rfl⟩, t, mem_kstar_oneOf.mpr ht, rfl⟩

theorem mem_digits : s ∈ oneOf Digit * (oneOf Digit)∗ ↔ s ≠ [] ∧ ∀ c ∈ s, Digit c := by
  rw [mem_oneOf_mul_kstar]
  cases s with
  | nil => simp
  | cons c s => simp

theorem mem_dice : s ∈ Kind.dice.pattern ↔
    ∃ count size, s = count ++ 'd' :: size ∧ (∀ c ∈ count, Digit c) ∧
      size ≠ [] ∧ ∀ c ∈ size, Digit c := by
  constructor
  · rintro ⟨_, ⟨count, hcount, _, ⟨_, rfl, rfl⟩, rfl⟩, size, hsize, rfl⟩
    exact ⟨count, size, by simp, mem_kstar_oneOf.mp hcount, mem_digits.mp hsize⟩
  · rintro ⟨count, size, rfl, hcount, hsize⟩
    rw [List.append_cons]
    exact Language.append_mem_mul
      (Language.append_mem_mul (mem_kstar_oneOf.mpr hcount) (mem_single.mpr rfl))
      (mem_digits.mpr hsize)

theorem ne_nil_of_mem_nameShape (h : s ∈ nameShape) : s ≠ [] := by
  obtain ⟨c, s, rfl, -⟩ := mem_oneOf_mul_kstar.mp h
  exact List.cons_ne_nil c s

theorem ne_nil_of_mem_namesShape (h : s ∈ namesShape) : s ≠ [] := by
  obtain ⟨name, isName, more, -, rfl⟩ := h
  exact List.append_ne_nil_of_left_ne_nil (ne_nil_of_mem_nameShape isName) more

theorem mem_dottedShape : s ∈ dottedShape ↔ s = [] ∨ s ∈ single '.' * namesShape := by
  rw [dottedShape, ← Language.one_add_self_mul_kstar_eq_kstar, mul_assoc]
  exact Iff.rfl

end Membership

/-! ### Classes of characters -/

section Classes

variable {c : Char}

theorem isDigit_iff : c.isDigit = true ↔ Digit c :=
  Char.isDigit_iff_toNat

theorem isUpper_iff : c.isUpper = true ↔ Between 'A' 'Z' c :=
  decide_eq_true_iff

theorem isLower_iff : c.isLower = true ↔ Between 'a' 'z' c :=
  Bool.and_eq_true_iff.trans (and_congr decide_eq_true_iff decide_eq_true_iff)

theorem isAlpha_iff : c.isAlpha = true ↔ Between 'A' 'Z' c ∨ Between 'a' 'z' c :=
  Bool.or_eq_true_iff.trans (or_congr isUpper_iff isLower_iff)

theorem isNameStart_iff : Token.isNameStart c = true ↔ NameStart c := by
  rw [Token.isNameStart, Bool.or_eq_true, isAlpha_iff, beq_iff_eq, NameStart, or_assoc]

theorem isNameChar_iff : Token.isNameChar c = true ↔ NameChar c := by
  rw [NameChar, ← isNameStart_iff, ← isDigit_iff]
  simp [Token.isNameChar, Token.isNameStart, Char.isAlphanum, or_right_comm]

end Classes

/-! ### Longest beginnings -/

/-- A beginning of the text that is longest among those with the pattern. It is empty if
there are none. -/
structure Longest (l : Language Char) (t s : Text) : Prop where
  beginning : s <+: t
  matching : s ≠ [] → s ∈ l
  longest : ∀ p ∈ l, p <+: t → p <+: s

theorem exists_eq_cons {c : Char} {s t : Text} (h : c :: s <+: t) : ∃ u, t = c :: u := by
  obtain ⟨rest, rfl⟩ := h
  exact ⟨s ++ rest, rfl⟩

namespace Longest

variable {l : Language Char} {s t : Text}

theorem nil (h : ∀ p ∈ l, ¬ p <+: t) : Longest l t [] :=
  ⟨List.nil_prefix, fun nonempty => absurd rfl nonempty,
    fun p hp hprefix => absurd hprefix (h p hp)⟩

theorem cons (h : Longest l t s) (c : Char) (nonempty : ∀ p ∈ l, p ≠ []) :
    Longest (single c * l) (c :: t) (if s = [] then [] else c :: s) := by
  have inside : ∀ p ∈ single c * l, p <+: c :: t → s ≠ [] ∧ p <+: c :: s := by
    rintro _ ⟨_, ⟨_, rfl, rfl⟩, p, hp, rfl⟩ hprefix
    have within : p <+: s := h.longest p hp (List.cons_prefix_cons.mp hprefix).2
    refine ⟨fun empty => ?_, List.cons_prefix_cons.mpr ⟨rfl, within⟩⟩
    rw [empty, List.prefix_nil] at within
    exact nonempty p hp within
  by_cases empty : s = []
  · rw [if_pos empty]
    exact .nil fun p hp hprefix => (inside p hp hprefix).1 empty
  · rw [if_neg empty]
    exact ⟨List.cons_prefix_cons.mpr ⟨rfl, h.beginning⟩,
      fun _ => ⟨[c], mem_single.mpr rfl, s, h.matching empty, rfl⟩,
      fun p hp hprefix => (inside p hp hprefix).2⟩

theorem mem_dottedShape (h : Longest dottedShape t s) : s ∈ dottedShape := by
  by_cases empty : s = []
  · exact empty ▸ Language.nil_mem_kstar _
  · exact h.matching empty

end Longest

namespace Token

theorem prefix_takeWhile {q : Char → Bool} {s t : Text} (inside : ∀ c ∈ s, q c = true)
    (h : s <+: t) : s <+: t.takeWhile q := by
  obtain ⟨rest, rfl⟩ := h
  rw [List.takeWhile_append_of_pos inside]
  exact List.prefix_append _ _

theorem forall_mem_takeWhile {q : Char → Bool} (t : Text) : ∀ c ∈ t.takeWhile q, q c = true :=
  List.all_eq_true.mp List.all_takeWhile

theorem digits_integerText (t : Text) : ∀ c ∈ integerText t, Digit c :=
  fun c hc => isDigit_iff.mp (forall_mem_takeWhile t c hc)

theorem prefix_integerText {s t : Text} (digits : ∀ c ∈ s, Digit c) (h : s <+: t) :
    s <+: integerText t :=
  prefix_takeWhile (fun c hc => isDigit_iff.mpr (digits c hc)) h

theorem longest_integerText (t : Text) : Longest Kind.integer.pattern t (integerText t) where
  beginning := List.takeWhile_prefix _
  matching nonempty := mem_digits.mpr ⟨nonempty, digits_integerText t⟩
  longest _ hp := prefix_integerText (mem_digits.mp hp).2

theorem takeWhile_append_stop {q : Char → Bool} {s t : Text} (inside : ∀ c ∈ s, q c = true)
    (stop : ∀ c ∈ t.head?, q c = false) : (s ++ t).takeWhile q = s := by
  rw [List.takeWhile_append_of_pos inside]
  cases t with
  | nil => simp
  | cons c t => simp [stop c rfl]

theorem integerText_append {s t : Text} (digits : ∀ c ∈ s, Digit c)
    (stop : ∀ c ∈ t.head?, ¬ Digit c) : integerText (s ++ t) = s :=
  takeWhile_append_stop (fun c hc => isDigit_iff.mpr (digits c hc))
    fun c hc => Bool.eq_false_iff.mpr fun digit => stop c hc (isDigit_iff.mp digit)

section Dice

variable {count : Text}

theorem integerText_append_d (digits : ∀ c ∈ count, Digit c) (t : Text) :
    integerText (count ++ 'd' :: t) = count := by
  refine integerText_append digits ?_
  rintro _ ⟨⟩
  decide

theorem diceText_append (digits : ∀ c ∈ count, Digit c) (t : Text) :
    diceText (count ++ 'd' :: t) =
      if integerText t = [] then [] else count ++ 'd' :: integerText t := by
  have skipped : (count ++ 'd' :: t).dropWhile Char.isDigit = 'd' :: t := by
    rw [List.dropWhile_append_of_pos fun c hc => isDigit_iff.mpr (digits c hc)]
    simp
  unfold diceText
  rw [integerText_append_d digits]
  split
  · next rest same =>
    cases skipped.symm.trans same
    rfl
  · next other => exact absurd skipped (other t)

theorem diceText_eq_nil {t : Text} (h : ¬ ∃ count rest, (∀ c ∈ count, Digit c) ∧
    t = count ++ 'd' :: rest) : diceText t = [] := by
  unfold diceText
  split
  · next rest skipped =>
    refine absurd ⟨integerText t, rest, digits_integerText t, ?_⟩ h
    rw [← skipped, integerText, List.takeWhile_append_dropWhile]
  · rfl

/-- There is one way to read a count and the letter behind it. -/
theorem prefix_of_count {count' size t : Text} (digits : ∀ c ∈ count, Digit c)
    (digits' : ∀ c ∈ count', Digit c) (h : count ++ 'd' :: size <+: count' ++ 'd' :: t) :
    count = count' ∧ size <+: t := by
  obtain ⟨rest, split⟩ := h
  have same : count = count' := by
    rw [← integerText_append_d digits (size ++ rest), ← integerText_append_d digits' t, ← split]
    simp
  subst same
  simp only [List.append_assoc, List.cons_append, List.append_cancel_left_eq,
    List.cons.injEq, true_and] at split
  exact ⟨rfl, rest, split⟩

theorem prefix_d (count : Text) {s t : Text} :
    count ++ 'd' :: s <+: count ++ 'd' :: t ↔ s <+: t := by
  rw [List.prefix_append_right_inj, List.cons_prefix_cons]
  exact and_iff_right rfl

theorem longest_diceText (t : Text) : Longest Kind.dice.pattern t (diceText t) := by
  by_cases reads : ∃ count rest, (∀ c ∈ count, Digit c) ∧ t = count ++ 'd' :: rest
  · obtain ⟨count, rest, digits, rfl⟩ := reads
    rw [diceText_append digits]
    split
    · next empty =>
      refine .nil fun p hp h => ?_
      obtain ⟨count', size, rfl, digits', nonempty, sizeDigits⟩ := mem_dice.mp hp
      have size_le := prefix_integerText sizeDigits (prefix_of_count digits' digits h).2
      rw [empty, List.prefix_nil] at size_le
      exact absurd size_le nonempty
    · next nonempty =>
      refine ⟨?_, fun _ => ?_, fun p hp h => ?_⟩
      · exact (prefix_d count).mpr (List.takeWhile_prefix _)
      · exact mem_dice.mpr ⟨count, _, rfl, digits, nonempty, digits_integerText rest⟩
      · obtain ⟨count', size, rfl, digits', -, sizeDigits⟩ := mem_dice.mp hp
        obtain ⟨rfl, within⟩ := prefix_of_count digits' digits h
        exact (prefix_d _).mpr (prefix_integerText sizeDigits within)
  · rw [diceText_eq_nil reads]
    refine .nil fun p hp h => ?_
    obtain ⟨count, size, rfl, digits, -⟩ := mem_dice.mp hp
    obtain ⟨rest, split⟩ := h
    exact absurd ⟨count, size ++ rest, digits, by simp [← split]⟩ reads

end Dice

section Names

variable {s t : Text}

theorem prefix_nameText (name : s ∈ nameShape) (h : s <+: t) : s <+: nameText t := by
  obtain ⟨c, s, rfl, start, inside⟩ := mem_oneOf_mul_kstar.mp name
  cases t with
  | nil => simp at h
  | cons d t =>
    obtain ⟨rfl, within⟩ := List.cons_prefix_cons.mp h
    rw [nameText, if_pos (isNameStart_iff.mpr start)]
    exact List.cons_prefix_cons.mpr
      ⟨rfl, prefix_takeWhile (fun d hd => isNameChar_iff.mpr (inside d hd)) within⟩

theorem longest_nameText (t : Text) : Longest Kind.name.pattern t (nameText t) := by
  refine ⟨?_, fun h => ?_, fun p hp => prefix_nameText hp⟩
  · cases t with
    | nil => exact List.nil_prefix
    | cons c t =>
      by_cases start : isNameStart c = true
      · rw [nameText, if_pos start]
        exact List.cons_prefix_cons.mpr ⟨rfl, List.takeWhile_prefix _⟩
      · rw [nameText, if_neg start]
        exact List.nil_prefix
  · cases t with
    | nil => exact absurd rfl h
    | cons c t =>
      by_cases start : isNameStart c = true
      · rw [nameText, if_pos start]
        exact mem_oneOf_mul_kstar.mpr ⟨c, _, rfl, isNameStart_iff.mp start,
          fun d hd => isNameChar_iff.mp (forall_mem_takeWhile t d hd)⟩
      · rw [nameText, if_neg start] at h
        exact absurd rfl h

/-- A name ends where a point follows. -/
theorem nameText_point (name : s ∈ nameShape) (t : Text) : nameText (s ++ '.' :: t) = s := by
  obtain ⟨c, s, rfl, start, inside⟩ := mem_oneOf_mul_kstar.mp name
  rw [List.cons_append, nameText, if_pos (isNameStart_iff.mpr start),
    takeWhile_append_stop fun d hd => isNameChar_iff.mpr (inside d hd)]
  rintro _ ⟨⟩
  rfl

/-- The longest beginning of a text that is made of names with points between them. -/
def namesText (t : Text) : Text :=
  if nameText t = [] then [] else nameText t ++ dottedNames (t.drop (nameText t).length)

theorem dottedNames_cons (t : Text) :
    dottedNames ('.' :: t) = if namesText t = [] then [] else '.' :: namesText t := by
  rw [dottedNames, namesText]
  by_cases empty : nameText t = [] <;> simp [empty]

theorem referenceText_cons (t : Text) :
    referenceText ('@' :: t) = if namesText t = [] then [] else '@' :: namesText t := by
  rw [referenceText, namesText]
  by_cases empty : nameText t = [] <;> simp [empty]

theorem longest_namesText
    (dotted : nameText t ≠ [] → Longest dottedShape (t.drop (nameText t).length)
      (dottedNames (t.drop (nameText t).length))) :
    Longest namesShape t (namesText t) := by
  have first := longest_nameText t
  unfold namesText
  by_cases empty : nameText t = []
  · rw [if_pos empty]
    refine .nil fun p hp hprefix => ?_
    obtain ⟨name, isName, more, -, rfl⟩ := Language.mem_mul.mp hp
    have none := first.longest name isName ((List.prefix_append name more).trans hprefix)
    rw [empty, List.prefix_nil] at none
    exact absurd none (ne_nil_of_mem_nameShape isName)
  · rw [if_neg empty]
    obtain ⟨rest, split⟩ := first.beginning
    have dropped : t.drop (nameText t).length = rest :=
      calc t.drop (nameText t).length = (nameText t ++ rest).drop (nameText t).length := by
            rw [split]
        _ = rest := List.drop_left
    have dotted := dotted empty
    rw [dropped] at dotted ⊢
    refine ⟨?_, fun _ => ⟨_, first.matching empty, _, dotted.mem_dottedShape, rfl⟩, ?_⟩
    · have whole := (List.prefix_append_right_inj (nameText t)).mpr dotted.beginning
      rwa [split] at whole
    · intro p hp hprefix
      obtain ⟨name, isName, more, isDotted, rfl⟩ := Language.mem_mul.mp hp
      have start := (List.prefix_append name more).trans hprefix
      obtain rfl | isCons := mem_dottedShape.mp isDotted
      · rw [List.append_nil]
        exact (first.longest name isName start).trans (List.prefix_append _ _)
      · obtain ⟨_, ⟨_, rfl, rfl⟩, names, -, rfl⟩ := Language.mem_mul.mp isCons
        obtain ⟨rest', split'⟩ := hprefix
        rw [List.append_assoc] at split'
        -- The point behind the name ends it, so it is all of the name that was read.
        have same : nameText t = name := by
          rw [← split']
          exact nameText_point isName _
        have rest_eq : '.' :: names ++ rest' = rest := by
          rw [same, ← split'] at split
          exact (List.append_cancel_left split).symm
        rw [same, List.prefix_append_right_inj]
        exact dotted.longest _ isDotted ⟨rest', rest_eq⟩

theorem longest_dottedNames_cons (names : Longest namesShape t (namesText t)) :
    Longest dottedShape ('.' :: t) (dottedNames ('.' :: t)) := by
  have dotted := names.cons '.' fun p hp => ne_nil_of_mem_namesShape hp
  rw [← dottedNames_cons] at dotted
  refine ⟨dotted.beginning, fun h => mem_dottedShape.mpr (.inr (dotted.matching h)),
    fun p hp hprefix => ?_⟩
  obtain rfl | isCons := mem_dottedShape.mp hp
  · exact List.nil_prefix
  · exact dotted.longest p isCons hprefix

theorem longest_dottedNames (t : Text) : Longest dottedShape t (dottedNames t) := by
  induction t using dottedNames.induct with
  | case1 t empty => exact longest_dottedNames_cons (longest_namesText fun h => absurd empty h)
  | case2 t _ ih => exact longest_dottedNames_cons (longest_namesText fun _ => ih)
  | case3 t undotted =>
    have none : dottedNames t = [] := by
      rw [dottedNames]
      exact undotted
    rw [none]
    refine ⟨List.nil_prefix, fun h => absurd rfl h, fun p hp hprefix => ?_⟩
    obtain rfl | isCons := mem_dottedShape.mp hp
    · exact List.nil_prefix
    · obtain ⟨_, ⟨_, rfl, rfl⟩, names, -, rfl⟩ := Language.mem_mul.mp isCons
      obtain ⟨u, split⟩ := exists_eq_cons hprefix
      exact (undotted u split).elim

theorem longest_referenceText (t : Text) : Longest Kind.reference.pattern t (referenceText t) := by
  by_cases marked : ∃ u, t = '@' :: u
  · obtain ⟨u, rfl⟩ := marked
    rw [referenceText_cons]
    exact (longest_namesText fun _ => longest_dottedNames _).cons '@'
      fun p hp => ne_nil_of_mem_namesShape hp
  · have none : referenceText t = [] := by
      rw [referenceText]
      exact fun u split => marked ⟨u, split⟩
    rw [none]
    refine .nil fun p hp hprefix => ?_
    obtain ⟨_, ⟨_, rfl, rfl⟩, names, -, rfl⟩ := Language.mem_mul.mp hp
    exact marked (exists_eq_cons hprefix)

end Names

end Token

/-! ### Symbols -/

theorem pattern_of_symbol? {c : Char} {kind : Kind} (h : Token.symbol? c = some kind) :
    kind.pattern = single c := by
  unfold Token.symbol? at h
  split at h <;> cases h <;> rfl

/-- Kinds are those of symbols or have a class of their own. -/
theorem symbol_or_class (kind : Kind) : (∃ c, Token.symbol? c = some kind) ∨
    kind = .integer ∨ kind = .dice ∨ kind = .name ∨ kind = .reference ∨ kind = .unknown := by
  cases kind with
  | integer | dice | name | reference | unknown => simp
  | leftParen => exact .inl ⟨'(', rfl⟩
  | rightParen => exact .inl ⟨')', rfl⟩
  | leftBracket => exact .inl ⟨'[', rfl⟩
  | rightBracket => exact .inl ⟨']', rfl⟩
  | comma => exact .inl ⟨',', rfl⟩
  | plus => exact .inl ⟨'+', rfl⟩
  | minus => exact .inl ⟨'-', rfl⟩
  | star => exact .inl ⟨'*', rfl⟩
  | slash => exact .inl ⟨'/', rfl⟩

/-! ### A text has one pattern -/

section Unique

variable {c : Char} {s : Text} {kind kind' : Kind}

/-- The kind of the tokens that start with a character and are no dice. -/
def leading? (c : Char) : Option Kind :=
  if Digit c then some .integer
  else if NameStart c then some .name
  else if c = '@' then some .reference
  else Token.symbol? c

theorem leading?_of_digit (h : Digit c) : leading? c = some .integer :=
  if_pos h

theorem leading?_of_nameStart (h : NameStart c) : leading? c = some .name := by
  have other : ¬ Digit c := by
    rintro ⟨-, last⟩
    obtain ⟨first, -⟩ | ⟨first, -⟩ | rfl := h
    · exact absurd (Nat.le_trans first last) (by decide)
    · exact absurd (Nat.le_trans first last) (by decide)
    · exact absurd last (by decide)
  rw [leading?, if_neg other, if_pos h]

theorem leading?_of_symbol? (h : Token.symbol? c = some kind) : leading? c = some kind := by
  unfold Token.symbol? at h
  split at h <;> cases h <;> decide

/-- Dice start as an integer or as a name. -/
theorem leading?_of_mem_dice (h : s ∈ Kind.dice.pattern) :
    ∃ c t, s = c :: t ∧ (leading? c = some .integer ∨ leading? c = some .name) := by
  obtain ⟨count, size, rfl, digits, -⟩ := mem_dice.mp h
  cases count with
  | nil => exact ⟨'d', size, rfl, .inr (by decide)⟩
  | cons c count => exact ⟨c, _, rfl, .inl (leading?_of_digit (digits c List.mem_cons_self))⟩

theorem leading?_of_mem_pattern (h : s ∈ kind.pattern) (other : kind ≠ .dice) :
    ∃ c t, s = c :: t ∧ leading? c = some kind := by
  obtain ⟨c, symbol⟩ | rfl | rfl | rfl | rfl | rfl := symbol_or_class kind
  · rw [pattern_of_symbol? symbol, mem_single] at h
    exact ⟨c, [], h, leading?_of_symbol? symbol⟩
  · obtain ⟨c, t, rfl, digit, -⟩ := mem_oneOf_mul_kstar.mp h
    exact ⟨c, t, rfl, leading?_of_digit digit⟩
  · exact absurd rfl other
  · obtain ⟨c, t, rfl, start, -⟩ := mem_oneOf_mul_kstar.mp h
    exact ⟨c, t, rfl, leading?_of_nameStart start⟩
  · obtain ⟨_, ⟨_, rfl, rfl⟩, t, -, rfl⟩ := Language.mem_mul.mp h
    exact ⟨'@', t, rfl, by decide⟩
  · exact h.elim

/-- A text with the pattern of dice has no other pattern, except that of a name. -/
theorem eq_dice_of_mem_pattern (dice : s ∈ Kind.dice.pattern) (h : s ∈ kind.pattern)
    (other : kind ≠ .name) : kind = .dice := by
  by_contra no
  obtain ⟨c, t, rfl, leads⟩ := leading?_of_mem_pattern h no
  obtain ⟨_, _, ⟨⟩, integer | name⟩ := leading?_of_mem_dice dice
  · cases leads.symm.trans integer
    obtain ⟨count, size, split, -⟩ := mem_dice.mp dice
    have digit : Digit 'd' := (mem_digits.mp h).2 'd' (by simp [split])
    exact absurd digit (by decide)
  · exact other (Option.some.inj (leads.symm.trans name))

/-- A text has at most one pattern, where dice are no names. -/
theorem eq_of_mem_pattern (h : s ∈ kind.pattern) (h' : s ∈ kind'.pattern)
    (noName : kind = .name → s ∉ Kind.dice.pattern)
    (noName' : kind' = .name → s ∉ Kind.dice.pattern) : kind = kind' := by
  by_cases dice : s ∈ Kind.dice.pattern
  · rw [eq_dice_of_mem_pattern dice h fun name => noName name dice,
      eq_dice_of_mem_pattern dice h' fun name => noName' name dice]
  · obtain ⟨c, t, rfl, leads⟩ := leading?_of_mem_pattern h fun eq => dice (eq ▸ h)
    obtain ⟨_, _, ⟨⟩, leads'⟩ := leading?_of_mem_pattern h' fun eq => dice (eq ▸ h')
    exact Option.some.inj (leads.symm.trans leads')

theorem symbol?_ne (h : Token.symbol? c = some kind) : kind ≠ .integer ∧ kind ≠ .name := by
  unfold Token.symbol? at h
  split at h <;> cases h <;> decide

/-- Only the symbol itself starts with the character of a symbol. -/
theorem eq_of_symbol? (symbol : Token.symbol? c = some kind) (h : c :: s ∈ kind'.pattern) :
    kind' = kind ∧ s = [] := by
  have leads := leading?_of_symbol? symbol
  have other : kind' ≠ .dice := by
    rintro rfl
    obtain ⟨_, _, ⟨⟩, integer | name⟩ := leading?_of_mem_dice h
    · exact (symbol?_ne symbol).1 (Option.some.inj (leads.symm.trans integer))
    · exact (symbol?_ne symbol).2 (Option.some.inj (leads.symm.trans name))
  obtain ⟨_, _, ⟨⟩, leads'⟩ := leading?_of_mem_pattern h other
  obtain rfl := Option.some.inj (leads'.symm.trans leads)
  rw [pattern_of_symbol? symbol, mem_single] at h
  exact ⟨rfl, List.tail_eq_of_cons_eq h⟩

theorem ne_nil_of_mem_pattern (h : s ∈ kind.pattern) : s ≠ [] := by
  by_cases dice : kind = .dice
  · obtain ⟨c, t, rfl, -⟩ := leading?_of_mem_dice (dice ▸ h)
    exact List.cons_ne_nil c t
  · obtain ⟨c, t, rfl, -⟩ := leading?_of_mem_pattern h dice
    exact List.cons_ne_nil c t

end Unique

/-! ### Patterns have no blanks -/

/-- Blanks, which separate tokens. -/
def blanks : List Char :=
  [' ', '\t', '\r', '\n']

theorem isBlank_iff {c : Char} : Token.isBlank c = true ↔ c ∈ blanks := by
  simp [Token.isBlank, blanks, or_assoc]

/-- No text of the language has a blank. -/
def Unblank (l : Language Char) : Prop :=
  ∀ s ∈ l, ∀ c ∈ s, c ∉ blanks

namespace Unblank

variable {l m : Language Char}

theorem mul (hl : Unblank l) (hm : Unblank m) : Unblank (l * m) := by
  rintro _ ⟨s, hs, t, ht, rfl⟩ c hc
  obtain hc | hc := List.mem_append.mp hc
  · exact hl s hs c hc
  · exact hm t ht c hc

theorem kstar (h : Unblank l) : Unblank l∗ := by
  intro s hs c hc
  obtain ⟨words, rfl, inside⟩ := Language.mem_kstar.mp hs
  obtain ⟨word, mem, hc⟩ := List.mem_flatten.mp hc
  exact h word (inside word mem) c hc

theorem oneOf {p : Char → Prop} (h : ¬ p ' ' ∧ ¬ p '\t' ∧ ¬ p '\r' ∧ ¬ p '\n') :
    Unblank (oneOf p) := by
  rintro _ ⟨d, hd, rfl⟩ c hc blank
  obtain rfl := List.mem_singleton.mp hc
  simp only [blanks, List.mem_cons, List.not_mem_nil, or_false] at blank
  obtain rfl | rfl | rfl | rfl := blank
  · exact h.1 hd
  · exact h.2.1 hd
  · exact h.2.2.1 hd
  · exact h.2.2.2 hd

end Unblank

theorem unblank_pattern (kind : Kind) : Unblank kind.pattern := by
  have digit : Unblank (oneOf Digit) := .oneOf (by decide)
  have name : Unblank nameShape := .mul (.oneOf (by decide)) (.kstar (.oneOf (by decide)))
  have point : Unblank (single '.') := .oneOf (by decide)
  cases kind with
  | integer => exact digit.mul digit.kstar
  | dice => exact (digit.kstar.mul (.oneOf (by decide))).mul (digit.mul digit.kstar)
  | name => exact name
  | reference => exact .mul (.oneOf (by decide)) (name.mul (point.mul name).kstar)
  | unknown => exact fun s hs => hs.elim
  | leftParen | rightParen | leftBracket | rightBracket | comma | plus | minus | star | slash =>
    exact .oneOf (by decide)

end RuleText.Formula
