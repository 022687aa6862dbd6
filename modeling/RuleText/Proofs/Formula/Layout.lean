import Mathlib.Data.List.Chain
import RuleText.Proofs.Formula.Alike
import RuleText.Proofs.Formula.Spelling

/-!
# Tokens of texts put together

Blanks and symbols are in no longer token (`Breaks`). Where one of them stands at the seam of two
texts, each of the texts is cut into its own tokens (`Lexes.append`). So further tokens can be
written behind those at the front of a text, and none of them changes (`Lexes.write`).

Only at a minus sign does it matter for the parser whether tokens touch (`Tight`). They do so in
a text that has no blanks beside its minus signs (`Lexes.tight`).
-/

namespace RuleText.Formula

open Computability

/-! ### Characters that break a token -/

/-- The character is in no text of the language. -/
def Free (c : Char) (l : Language Char) : Prop :=
  ∀ s ∈ l, c ∉ s

namespace Free

variable {c : Char} {l m : Language Char}

theorem mul (hl : Free c l) (hm : Free c m) : Free c (l * m) := by
  rintro _ ⟨s, hs, t, ht, rfl⟩ hc
  obtain hc | hc := List.mem_append.mp hc
  · exact hl s hs hc
  · exact hm t ht hc

theorem kstar (h : Free c l) : Free c l∗ := by
  intro s hs hc
  obtain ⟨words, rfl, inside⟩ := Language.mem_kstar.mp hs
  obtain ⟨word, mem, hc⟩ := List.mem_flatten.mp hc
  exact h word (inside word mem) hc

theorem oneOf {p : Char → Prop} (h : ¬ p c) : Free c (oneOf p) := by
  rintro _ ⟨d, hd, rfl⟩ hc
  exact h (List.mem_singleton.mp hc ▸ hd)

end Free

section Breaks

variable {c : Char} {kind matched : Kind} {s t w p : Text}

/-- A pattern is that of a symbol, or it has no symbols. -/
theorem symbol_or_free (kind : Kind) (symbol : Token.symbol? c = some matched) :
    (∃ d, kind.pattern = single d) ∨ Free c kind.pattern := by
  have leads := leading?_of_symbol? symbol
  have noDigit : ¬ Digit c := fun digit =>
    (symbol?_ne symbol).1 (Option.some.inj (leads.symm.trans (leading?_of_digit digit)))
  have noStart : ¬ NameStart c := fun start =>
    (symbol?_ne symbol).2 (Option.some.inj (leads.symm.trans (leading?_of_nameStart start)))
  have other (d : Char) (none : Token.symbol? d = none) : Free c (single d) := by
    apply Free.oneOf
    rintro rfl
    cases none.symm.trans symbol
  have digits : Free c (oneOf Digit) := .oneOf noDigit
  have name : Free c nameShape :=
    .mul (.oneOf noStart) (.kstar (.oneOf (not_or.mpr ⟨noStart, noDigit⟩)))
  cases kind with
  | integer => exact .inr (digits.mul digits.kstar)
  | dice => exact .inr ((digits.kstar.mul (other 'd' rfl)).mul (digits.mul digits.kstar))
  | name => exact .inr name
  | reference => exact .inr ((other '@' rfl).mul (name.mul ((other '.' rfl).mul name).kstar))
  | unknown => exact .inr fun s hs => hs.elim
  | leftParen | rightParen | leftBracket | rightBracket | comma | plus | minus | star | slash =>
    exact .inl ⟨_, rfl⟩

/-- A character that is in no token, except that it may be one itself. -/
def Breaks (c : Char) : Prop :=
  c ∈ blanks ∨ ∃ kind, Token.symbol? c = some kind

theorem Breaks.eq_of_mem (h : Breaks c) (matching : p ∈ kind.pattern) (mem : c ∈ p) : p = [c] := by
  obtain blank | ⟨matched, symbol⟩ := h
  · exact absurd blank (unblank_pattern kind p matching c mem)
  · obtain ⟨d, single⟩ | free := symbol_or_free kind symbol
    · rw [single, mem_single] at matching
      subst matching
      rw [List.mem_singleton.mp mem]
    · exact absurd mem (free p matching)

/-- No token goes over the seam of two texts. -/
def Seam (t w : Text) : Prop :=
  ∀ c ∈ t.getLast?, ∀ d ∈ w.head?, Breaks c ∨ Breaks d

theorem Seam.of_append (h : Seam (s ++ t) w) : Seam t w := by
  intro c last
  refine h c ?_
  rw [Option.mem_def] at last ⊢
  rw [List.getLast?_append, last, Option.some_or]

theorem Seam.of_breaks (breaks : Breaks c) : Seam t (c :: w) :=
  fun _ _ _ mem => .inr (Option.mem_some.mp mem ▸ breaks)

theorem Seam.of_breaks_left (breaks : Breaks c) : Seam (t ++ [c]) w := by
  intro last mem _ _
  rw [List.getLast?_concat] at mem
  exact .inl (Option.mem_some.mp mem ▸ breaks)

/-- A pattern at the front of both texts is at the front of the first. -/
theorem Seam.prefix_left (h : Seam t w) (nonempty : t ≠ []) (matching : p ∈ kind.pattern)
    (front : p <+: t ++ w) : p <+: t := by
  obtain within | ⟨q, rfl⟩ := List.prefix_or_prefix_of_prefix front (List.prefix_append t w)
  · exact within
  cases q with
  | nil => rw [List.append_nil]
  | cons d q =>
    obtain ⟨t, c, rfl⟩ := (List.eq_nil_or_concat t).resolve_left nonempty
    obtain ⟨v, rfl⟩ := exists_eq_cons ((List.prefix_append_right_inj _).mp front)
    -- One of the characters at the seam breaks the pattern, which has both.
    have short (e : Char) (breaks : Breaks e) (mem : e ∈ t.concat c ++ d :: q) : False := by
      have length := congrArg List.length (breaks.eq_of_mem matching mem)
      simp at length
      omega
    obtain breaks | breaks := h c (by simp) d (by simp)
    · exact (short c breaks (by simp)).elim
    · exact (short d breaks (by simp)).elim

end Breaks

namespace Munches

variable {t w s : Text} {kind : Kind}

/-- The token is the same where the text goes on behind a seam. -/
theorem append (h : Munches t kind s) (seam : Seam t w) : Munches (t ++ w) kind s := by
  have nonempty : t ≠ [] := fun nil => h.ne_nil (List.prefix_nil.mp (nil ▸ h.beginning))
  cases h with
  | known beginning matching noName longest =>
    refine .known (beginning.trans (List.prefix_append t w)) matching noName ?_
    exact fun other p hp front => longest other p hp (seam.prefix_left nonempty hp front)
  | unknown unblank none =>
    refine .unknown unblank fun other p hp front => ?_
    exact none other p hp (seam.prefix_left nonempty hp front)

/-- A pattern that stands before such a character is a token. -/
theorem of_breaks {c : Char} (matching : s ∈ kind.pattern)
    (noName : kind = .name → s ∉ Kind.dice.pattern) (breaks : Breaks c) (rest : Text) :
    Munches (s ++ c :: rest) kind s := by
  have alone : Munches (s ++ []) kind s := .of_blank matching noName nofun
  rw [List.append_nil] at alone
  exact alone.append (.of_breaks breaks)

/-- The token is the same where the text ends behind it. -/
theorem of_prefix (h : Munches w kind s) (within : s <+: t) (front : t <+: w) :
    Munches t kind s := by
  cases h with
  | known _ matching noName longest =>
    refine .known within matching noName fun other p hp first => ?_
    exact longest other p hp (first.trans front)
  | unknown unblank none =>
    obtain ⟨u, rfl⟩ := exists_eq_cons within
    exact .unknown unblank fun other p hp first => none other p hp (first.trans front)

end Munches

/-- The place behind the last token, or the given one if there is none. -/
def lastStop (start : Nat) : List Token → Nat
  | [] => start
  | token :: ts => lastStop token.stop ts

theorem lastStop_of_getLast? {start : Nat} {ts : List Token} {last : Token}
    (h : last ∈ ts.getLast?) : lastStop start ts = last.stop := by
  induction ts generalizing start with
  | nil => cases h
  | cons token ts ih =>
    cases ts with
    | nil =>
      cases h
      rfl
    | cons next ts => exact @ih token.stop h

namespace Lexes

variable {start : Nat} {t u w : Text} {ts tokens rest : List Token}

/-- The texts on both sides of a seam are cut into tokens on their own. -/
theorem append (h : Lexes start t ts) (seam : Seam t w)
    (behind : Lexes (start + t.utf8Size) w rest) : Lexes start (t ++ w) (ts ++ rest) := by
  induction h with
  | nil start => simpa using behind
  | @blank start c t ts blank _ ih =>
    rw [Text.utf8Size_cons, ← Nat.add_assoc] at behind
    exact .blank blank (ih (Seam.of_append (s := [c]) seam) behind)
  | @token start kind s t ts munches _ ih =>
    rw [Text.utf8Size_append, ← Nat.add_assoc] at behind
    have munches := munches.append seam
    rw [List.append_assoc] at munches ⊢
    exact .token munches (ih seam.of_append behind)

/-- Up to the end of a token, a text has the tokens up to this one. -/
theorem front (h : Lexes start t (ts ++ rest)) :
    ∃ u : Text, u <+: t ∧ Lexes start u ts ∧ lastStop start ts = start + u.utf8Size := by
  generalize whole : ts ++ rest = tokens at h
  induction h generalizing ts with
  | nil start =>
    obtain ⟨rfl, rfl⟩ := List.append_eq_nil_iff.mp whole
    exact ⟨[], List.nil_prefix, .nil start, rfl⟩
  | @blank start c t tokens blank _ ih =>
    cases ts with
    | nil => exact ⟨[], List.nil_prefix, .nil start, rfl⟩
    | cons a ts =>
      obtain ⟨u, front, lexed, stop⟩ := ih whole
      refine ⟨c :: u, List.cons_prefix_cons.mpr ⟨rfl, front⟩, .blank blank lexed, ?_⟩
      rw [Text.utf8Size_cons, ← Nat.add_assoc]
      exact stop
  | @token start kind s t tokens munches _ ih =>
    cases ts with
    | nil => exact ⟨[], List.nil_prefix, .nil start, rfl⟩
    | cons a ts =>
      obtain ⟨rfl, same⟩ := List.cons.inj whole
      obtain ⟨u, front, lexed, stop⟩ := ih same
      have front : s ++ u <+: s ++ t := (List.prefix_append_right_inj s).mpr front
      refine ⟨s ++ u, front, .token (munches.of_prefix (List.prefix_append s u) front) lexed, ?_⟩
      rw [Text.utf8Size_append, ← Nat.add_assoc]
      exact stop

/-- A token at the end of a text. -/
theorem ends_with_last (h : Lexes start t ts) (stop : lastStop start ts = start + t.utf8Size)
    {last : Token} (mem : last ∈ ts.getLast?) :
    ∃ before, t = before ++ last.text ∧ Munches last.text last.kind last.text := by
  obtain ⟨before, after, rfl, start_eq, munches⟩ := h.stands last (List.mem_of_getLast? mem)
  have none : after.utf8Size = 0 := by
    rw [lastStop_of_getLast? mem, Token.stop, start_eq] at stop
    simp only [Text.utf8Size_append] at stop
    omega
  have empty : after = [] := by
    by_contra some_char
    exact absurd none (Nat.ne_of_gt (Text.utf8Size_pos some_char))
  subst empty
  exact ⟨before, by rw [List.append_nil], munches.alone⟩

/-- The first token, behind blanks. -/
theorem head {token : Token} (h : Lexes start t (token :: ts)) :
    ∃ gap after, t = gap ++ (token.text ++ after) ∧ (∀ c ∈ gap, c ∈ blanks) ∧
      token.start = start + gap.utf8Size ∧ Munches (token.text ++ after) token.kind token.text := by
  generalize whole : token :: ts = tokens at h
  induction h with
  | nil => cases whole
  | @blank start c t tokens blank _ ih =>
    obtain ⟨gap, after, rfl, blanks, start_eq, munches⟩ := ih whole
    refine ⟨c :: gap, after, rfl, List.forall_mem_cons.mpr ⟨blank, blanks⟩, ?_, munches⟩
    rw [start_eq, Text.utf8Size_cons, Nat.add_assoc]
  | @token start kind s t tokens munches _ _ =>
    obtain ⟨rfl, -⟩ := List.cons.inj whole
    exact ⟨[], t, rfl, by simp, rfl, munches⟩

end Lexes

/-! ### Minus signs that touch -/

/-- There is no blank beside a minus sign, from token to token. -/
def Tight (ts : List Token) : Prop :=
  ts.IsChain fun a b => a.kind = .minus ∨ b.kind = .minus → a.stop = b.start

/-- There is no blank beside a minus sign. -/
def Snug (t : Text) : Prop :=
  t.IsChain fun c d => (c = '-' → d ∉ blanks) ∧ (d = '-' → c ∉ blanks)

theorem tight_of_no_minus {ts : List Token} (h : ∀ a ∈ ts, a.kind ≠ .minus) : Tight ts := by
  refine List.Pairwise.isChain (List.pairwise_of_forall_mem_list fun a ha b hb minus => ?_)
  exact absurd minus (not_or.mpr ⟨h a ha, h b hb⟩)

/-- Tokens without a minus sign are written behind others. -/
theorem Tight.append {ts tokens : List Token} (tight : Tight ts)
    (noMinus : ∀ a ∈ tokens, a.kind ≠ .minus)
    (touch : ∀ last ∈ ts.getLast?, ∀ first ∈ tokens.head?,
      last.kind = .minus → last.stop = first.start) : Tight (ts ++ tokens) := by
  refine List.isChain_append.mpr ⟨tight, tight_of_no_minus noMinus, ?_⟩
  rintro last mem first mem' (sign | sign)
  · exact touch last mem first mem' sign
  · exact absurd sign (noMinus first (List.mem_of_mem_head? mem'))

theorem Munches.eq_minus {t s : Text} (h : Munches t .minus s) : s = ['-'] := by
  cases h with
  | known _ matching _ _ => exact mem_single.mp matching

theorem Lexes.tight {start : Nat} {t : Text} {ts : List Token} (h : Lexes start t ts)
    (snug : Snug t) : Tight ts := by
  induction h with
  | nil => exact .nil
  | blank _ _ ih => exact ih (List.IsChain.tail snug)
  | @token start kind s t ts munches lexed ih =>
    obtain ⟨-, behind, seam⟩ := List.isChain_append.mp snug
    refine List.isChain_cons.mpr ⟨fun next mem minus => ?_, ih behind⟩
    obtain ⟨more, rfl⟩ : ∃ more, ts = next :: more := List.head?_eq_some_iff.mp mem
    obtain ⟨gap, after, rfl, blank, start_eq, munches'⟩ := lexed.head
    by_cases touches : gap = []
    · rw [touches] at start_eq
      exact start_eq.symm
    -- Otherwise there is a blank behind the one token and a blank before the other.
    exfalso
    obtain rfl | sign := minus
    · obtain ⟨c, gap, rfl⟩ := List.exists_cons_of_ne_nil touches
      have sign : s = ['-'] := munches.alone.eq_minus
      exact (seam '-' (by simp [sign]) c rfl).1 rfl (blank c List.mem_cons_self)
    · obtain ⟨gap, c, rfl⟩ := (List.eq_nil_or_concat gap).resolve_left touches
      rw [sign] at munches'
      obtain ⟨-, -, seam⟩ := List.isChain_append.mp behind
      exact (seam c (by simp) '-' (by simp [munches'.alone.eq_minus])).2 rfl (blank c (by simp))

/-! ### Tokens written behind others -/

namespace Kind

/-- A token of the kind. -/
def sample : Kind → Text
  | integer => ['1']
  | dice => ['d', '6']
  | name => ['a']
  | reference => ['@', 'a']
  | leftParen => ['(']
  | rightParen => [')']
  | leftBracket => ['[']
  | rightBracket => [']']
  | comma => [',']
  | plus => ['+']
  | minus => ['-']
  | star => ['*']
  | slash => ['/']
  | unknown => []

/-- The kind with its sample. -/
def content (kind : Kind) : Kind × Text :=
  (kind, kind.sample)

theorem sample_mem_pattern {kind : Kind} (known : kind ≠ .unknown) :
    kind.sample ∈ kind.pattern := by
  have name : ['a'] ∈ nameShape := mem_oneOf_mul_kstar.mpr ⟨'a', [], rfl, by decide, by simp⟩
  cases kind with
  | integer =>
    have digit : Digit '1' := by decide
    exact mem_digits.mpr ⟨List.cons_ne_nil _ _, List.forall_mem_singleton.mpr digit⟩
  | dice =>
    have digit : Digit '6' := by decide
    exact mem_dice.mpr ⟨[], ['6'], rfl, nofun, List.cons_ne_nil _ _,
      List.forall_mem_singleton.mpr digit⟩
  | name => exact name
  | reference =>
    have names : ['a'] ∈ namesShape := ⟨['a'], name, [], mem_dottedShape.mpr (.inl rfl), rfl⟩
    exact ⟨['@'], mem_single.mpr rfl, ['a'], names, rfl⟩
  | unknown => exact absurd rfl known
  | leftParen | rightParen | leftBracket | rightBracket | comma | plus | minus | star | slash =>
    exact mem_single.mpr rfl

theorem sample_not_dice {kind : Kind} (name : kind = .name) : kind.sample ∉ dice.pattern := by
  subst name
  intro isDice
  obtain ⟨count, size, split, -⟩ := mem_dice.mp isDice
  have letter : 'd' ∈ name.sample := by simp [split]
  exact absurd letter (by decide)

end Kind

/-- Samples of the kinds, each behind a blank. -/
def spaced (kinds : List Kind) : Text :=
  kinds.flatMap fun kind => ' ' :: kind.sample

section Spaced

variable {kind : Kind} {kinds : List Kind}

theorem head_spaced (kinds : List Kind) : ∀ c ∈ (spaced kinds).head?, c ∈ blanks := by
  intro c mem
  cases kinds with
  | nil => cases mem
  | cons kind kinds =>
    obtain rfl := Option.mem_some.mp mem
    decide

/-- The text of the kinds, without a blank before the first. -/
theorem lexes_sample (known : ∀ k ∈ kind :: kinds, k ≠ .unknown) (start : Nat) :
    ∃ tokens, Lexes start (kind.sample ++ spaced kinds) (⟨kind, start, kind.sample⟩ :: tokens) ∧
      tokens.map Token.content = kinds.map Kind.content := by
  induction kinds generalizing kind start with
  | nil =>
    have munches := Munches.of_blank (kind.sample_mem_pattern (known kind List.mem_cons_self))
      Kind.sample_not_dice (head_spaced [])
    exact ⟨[], .token munches (.nil _), rfl⟩
  | cons next kinds ih =>
    have munches := Munches.of_blank (kind.sample_mem_pattern (known kind List.mem_cons_self))
      Kind.sample_not_dice (head_spaced (next :: kinds))
    obtain ⟨tokens, lexed, contents⟩ := ih (fun k mem => known k (List.mem_cons_of_mem _ mem))
      (start + kind.sample.utf8Size + 1)
    refine ⟨_, .token munches (.blank (by decide) lexed), ?_⟩
    rw [List.map_cons, contents]
    rfl

theorem map_kind_of_content {tokens : List Token}
    (h : tokens.map Token.content = kinds.map Kind.content) : tokens.map Token.kind = kinds := by
  have kind := congrArg (List.map Prod.fst) h
  rw [List.map_map, List.map_map] at kind
  exact kind.trans (List.map_id kinds)

/-- Further tokens are written behind those of a text, which stay as they are. -/
theorem Lexes.write {start : Nat} {u : Text} {ts : List Token} (h : Lexes start u ts)
    (stop : lastStop start ts = start + u.utf8Size) (tight : Tight ts)
    (known : ∀ k ∈ kinds, k ≠ .unknown ∧ k ≠ .minus) :
    ∃ w tokens, Lexes start (u ++ w) (ts ++ tokens) ∧
      tokens.map Token.content = kinds.map Kind.content ∧ Tight (ts ++ tokens) := by
  cases kinds with
  | nil => exact ⟨[], [], by simpa using h, rfl, by simpa using tight⟩
  | cons kind kinds =>
    have lexes := lexes_sample fun k mem => (known k mem).1
    have contents {start' : Nat} {tokens : List Token}
        (more : tokens.map Token.content = kinds.map Kind.content) :
        (⟨kind, start', kind.sample⟩ :: tokens).map Token.content =
          (kind :: kinds).map Kind.content := by
      rw [List.map_cons, more]
      rfl
    have noMinus {tokens : List Token}
        (same : tokens.map Token.content = (kind :: kinds).map Kind.content) :
        ∀ a ∈ tokens, a.kind ≠ .minus := fun a mem =>
      (known a.kind (map_kind_of_content same ▸ List.mem_map_of_mem mem)).2
    by_cases hyphen : ∃ last ∈ ts.getLast?, last.kind = .minus
    · -- The first one has to touch, and it may because a minus sign is a symbol.
      obtain ⟨last, mem, sign⟩ := hyphen
      obtain ⟨tokens, lexed, more⟩ := lexes (start + u.utf8Size)
      have seam : Seam u (kind.sample ++ spaced kinds) := by
        obtain ⟨before, rfl, munches⟩ := h.ends_with_last stop mem
        rw [sign] at munches
        rw [munches.eq_minus]
        exact .of_breaks_left (.inr ⟨.minus, rfl⟩)
      refine ⟨_, _, h.append seam lexed, contents more, tight.append (noMinus (contents more)) ?_⟩
      rintro last' mem' - ⟨⟩ -
      rw [← stop, lastStop_of_getLast? mem']
    · obtain ⟨tokens, lexed, more⟩ := lexes (start + u.utf8Size + 1)
      have blank : ' ' ∈ blanks := by decide
      refine ⟨_, _, h.append (.of_breaks (.inl blank)) (.blank blank lexed), contents more,
        tight.append (noMinus (contents more)) ?_⟩
      exact fun last mem _ _ sign => absurd ⟨last, mem, sign⟩ hyphen

end Spaced

end RuleText.Formula
