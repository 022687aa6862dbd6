import RuleText.Proofs.Formula.Patterns
import RuleText.Proofs.Text.Slice

/-!
# Cutting a formula into tokens

The token at the front of a text is the longest beginning with a pattern, or a single
character if there is none (`Munches`). This determines the token, and so the tokens of a
text are determined by taking one after the other and leaving out blanks (`Lexes`).

The tokens and the blanks between them are the whole text, and a token on its own is read
as that token again (`partitions_ofText`).
-/

namespace RuleText.Formula

/-! ### The token at the front of a text -/

/-- The token at the front of a text is of the kind and reads `s`: no beginning of the text
with a pattern is longer. Where no beginning has a pattern, it is one character that is no
blank. -/
inductive Munches : (t : Text) → (kind : Kind) → (s : Text) → Prop
  | known {t s : Text} {kind : Kind} : s <+: t → s ∈ kind.pattern →
      (kind = .name → s ∉ Kind.dice.pattern) →
      (∀ other : Kind, ∀ p ∈ other.pattern, p <+: t → p.length ≤ s.length) → Munches t kind s
  | unknown {c : Char} {t : Text} : c ∉ blanks →
      (∀ other : Kind, ∀ p ∈ other.pattern, ¬ p <+: c :: t) → Munches (c :: t) .unknown [c]

namespace Munches

variable {t s s' : Text} {kind kind' : Kind}

theorem beginning (h : Munches t kind s) : s <+: t := by
  cases h with
  | known beginning _ _ _ => exact beginning
  | unknown _ _ => exact List.cons_prefix_cons.mpr ⟨rfl, List.nil_prefix⟩

theorem ne_nil (h : Munches t kind s) : s ≠ [] := by
  cases h with
  | known _ matching _ _ => exact ne_nil_of_mem_pattern matching
  | unknown _ _ => exact List.cons_ne_nil _ _

theorem unblank (h : Munches t kind s) : ∀ c ∈ s, c ∉ blanks := by
  cases h with
  | known _ matching _ _ => exact unblank_pattern kind s matching
  | unknown unblank _ => exact fun c hc => List.mem_singleton.mp hc ▸ unblank

/-- There is one token at the front of a text. -/
theorem unique (h : Munches t kind s) (h' : Munches t kind' s') : kind = kind' ∧ s = s' := by
  cases h with
  | known beginning matching noName longest =>
    cases h' with
    | known beginning' matching' noName' longest' =>
      have within := longest' kind s matching beginning
      have covered : s <+: s' := List.prefix_of_prefix_length_le beginning beginning' within
      have same : s = s' :=
        covered.eq_of_length (Nat.le_antisymm within (longest kind' s' matching' beginning'))
      subst same
      exact ⟨eq_of_mem_pattern matching matching' noName noName', rfl⟩
    | unknown _ none => exact absurd beginning (none kind s matching)
  | unknown _ none =>
    cases h' with
    | known beginning' matching' _ _ => exact absurd beginning' (none kind' s' matching')
    | unknown _ _ => exact ⟨rfl, rfl⟩

/-- The token is the same where the text ends behind it. -/
theorem alone (h : Munches t kind s) : Munches s kind s := by
  cases h with
  | known beginning matching noName longest =>
    exact .known List.prefix_rfl matching noName fun other p hp within =>
      longest other p hp (within.trans beginning)
  | unknown unblank none =>
    refine .unknown unblank fun other p hp within => none other p hp (within.trans ?_)
    exact List.cons_prefix_cons.mpr ⟨rfl, List.nil_prefix⟩

/-- A pattern that stands before a blank, or at the end, is a token. -/
theorem of_blank (matching : s ∈ kind.pattern) (noName : kind = .name → s ∉ Kind.dice.pattern)
    {rest : Text} (blank : ∀ c ∈ rest.head?, c ∈ blanks) : Munches (s ++ rest) kind s := by
  refine .known (List.prefix_append s rest) matching noName fun other p hp hprefix => ?_
  by_contra longer
  have covered : s <+: p :=
    List.prefix_of_prefix_length_le (List.prefix_append s rest) hprefix (by omega)
  obtain ⟨_ | ⟨c, more⟩, rfl⟩ := covered
  · simp at longer
  · obtain ⟨_, rfl⟩ := exists_eq_cons ((List.prefix_append_right_inj s).mp hprefix)
    exact unblank_pattern other _ hp c (by simp) (blank c rfl)

/-- A symbol is a token whatever follows it. -/
theorem of_symbol {c : Char} (symbol : Token.symbol? c = some kind) (rest : Text) :
    Munches (c :: rest) kind [c] := by
  have matching : [c] ∈ kind.pattern := by
    rw [pattern_of_symbol? symbol]
    exact mem_single.mpr rfl
  refine .known (List.cons_prefix_cons.mpr ⟨rfl, List.nil_prefix⟩) matching
    (fun name => absurd name (symbol?_ne symbol).2) fun other p hp hprefix => ?_
  cases p with
  | nil => exact Nat.zero_le _
  | cons d p =>
    obtain ⟨rfl, -⟩ := List.cons_prefix_cons.mp hprefix
    rw [(eq_of_symbol? symbol hp).2]

end Munches

namespace Token

/-! ### The longest candidate -/

theorem longest_append (best : Kind × Text) (xs ys : List (Kind × Text)) :
    longest best (xs ++ ys) = longest (longest best xs) ys := by
  induction xs generalizing best with
  | nil => rfl
  | cons x xs ih => exact ih _

theorem longest_mem (best : Kind × Text) (more : List (Kind × Text)) :
    longest best more ∈ best :: more := by
  induction more generalizing best with
  | nil => exact List.mem_cons_self
  | cons next more ih =>
    rw [longest]
    have mem := ih (if best.2.length < next.2.length then next else best)
    split at mem <;> grind

theorem le_longest (best : Kind × Text) (more : List (Kind × Text)) :
    ∀ x ∈ best :: more, x.2.length ≤ (longest best more).2.length := by
  induction more generalizing best with
  | nil => simp [longest]
  | cons next more ih =>
    rw [longest]
    have le := ih (if best.2.length < next.2.length then next else best)
    split at le <;> grind

/-- A later candidate is taken only if it is longer. -/
theorem longest_eq_or_lt (best : Kind × Text) (more : List (Kind × Text)) :
    longest best more = best ∨ best.2.length < (longest best more).2.length := by
  induction more generalizing best with
  | nil => exact .inl rfl
  | cons next more ih =>
    rw [longest]
    have := ih (if best.2.length < next.2.length then next else best)
    split at this <;> grind

section Candidates

variable {t p : Text} {kind : Kind} {x : Kind × Text}

theorem symbolText_sound (t : Text) :
    (symbolText t).2 <+: t ∧
      ((symbolText t).2 ≠ [] → (symbolText t).2 ∈ (symbolText t).1.pattern) := by
  cases t with
  | nil => exact ⟨List.nil_prefix, fun h => absurd rfl h⟩
  | cons c t =>
    rw [symbolText]
    cases symbol : symbol? c with
    | none => exact ⟨List.nil_prefix, fun h => absurd rfl h⟩
    | some kind =>
      refine ⟨List.cons_prefix_cons.mpr ⟨rfl, List.nil_prefix⟩, fun _ => ?_⟩
      exact pattern_of_symbol? symbol ▸ mem_single.mpr rfl

/-- A candidate that is not empty is a beginning of the text with the pattern of its kind. -/
theorem candidate_sound (h : x ∈ candidates t) : x.2 <+: t ∧ (x.2 ≠ [] → x.2 ∈ x.1.pattern) := by
  simp only [candidates, List.mem_cons, List.not_mem_nil, or_false] at h
  obtain rfl | rfl | rfl | rfl | rfl := h
  · exact ⟨(longest_integerText t).beginning, (longest_integerText t).matching⟩
  · exact ⟨(longest_diceText t).beginning, (longest_diceText t).matching⟩
  · exact ⟨(longest_nameText t).beginning, (longest_nameText t).matching⟩
  · exact ⟨(longest_referenceText t).beginning, (longest_referenceText t).matching⟩
  · exact symbolText_sound t

/-- No beginning with a pattern is longer than all candidates. -/
theorem candidate_complete (hp : p ∈ kind.pattern) (h : p <+: t) :
    ∃ x ∈ candidates t, p.length ≤ x.2.length := by
  have read (s : Text) (mem : (kind, s) ∈ candidates t) (longest : Longest kind.pattern t s) :
      ∃ x ∈ candidates t, p.length ≤ x.2.length :=
    ⟨(kind, s), mem, (longest.longest p hp h).length_le⟩
  obtain ⟨c, symbol⟩ | rfl | rfl | rfl | rfl | rfl := symbol_or_class kind
  · rw [pattern_of_symbol? symbol, mem_single] at hp
    subst hp
    obtain ⟨u, rfl⟩ := exists_eq_cons h
    refine ⟨symbolText (c :: u), by simp [candidates], ?_⟩
    rw [symbolText, symbol]
  · exact read (integerText t) (by simp [candidates]) (longest_integerText t)
  · exact read (diceText t) (by simp [candidates]) (longest_diceText t)
  · exact read (nameText t) (by simp [candidates]) (longest_nameText t)
  · exact read (referenceText t) (by simp [candidates]) (longest_referenceText t)
  · exact hp.elim

end Candidates

/-- The longest of the candidates. -/
def winner (t : Text) : Kind × Text :=
  longest (.unknown, []) (candidates t)

theorem first_eq (c : Char) (t : Text) :
    first c t = if (winner (c :: t)).2 = [] then (.unknown, [c]) else winner (c :: t) := by
  unfold first winner
  split
  · next empty => rw [empty, if_pos rfl]
  · next other =>
    rw [if_neg fun empty => other _ (Prod.ext rfl empty)]

theorem length_le_winner {t p : Text} {kind : Kind} (hp : p ∈ kind.pattern) (h : p <+: t) :
    p.length ≤ (winner t).2.length := by
  obtain ⟨x, mem, le⟩ := candidate_complete hp h
  exact le.trans (le_longest _ _ x (List.mem_cons_of_mem _ mem))

theorem winner_mem {t : Text} (h : (winner t).2 ≠ []) : winner t ∈ candidates t := by
  obtain eq | mem := List.mem_cons.mp (longest_mem (.unknown, []) (candidates t))
  · exact absurd (congrArg Prod.snd eq) h
  · exact mem

/-- Dice that could be a name are found first. -/
theorem winner_ne_name {t : Text} (dice : (winner t).2 ∈ Kind.dice.pattern) :
    (winner t).1 ≠ .name := by
  intro name
  let earlier := longest (.unknown, []) [(.integer, integerText t), (.dice, diceText t)]
  have split : winner t =
      longest earlier [(.name, nameText t), (.reference, referenceText t), symbolText t] :=
    longest_append _ [_, _] _
  have read : (diceText t).length ≤ earlier.2.length :=
    le_longest _ [_, _] (.dice, diceText t) (by simp)
  have beginning : (winner t).2 <+: t :=
    (candidate_sound (winner_mem (ne_nil_of_mem_pattern dice))).1
  have le := ((longest_diceText t).longest _ dice beginning).length_le
  obtain same | longer := longest_eq_or_lt earlier
    [(.name, nameText t), (.reference, referenceText t), symbolText t]
  · have mem : earlier ∈ [(Kind.unknown, []), (.integer, integerText t), (.dice, diceText t)] :=
      longest_mem _ _
    rw [split, same] at name
    simp only [List.mem_cons, List.not_mem_nil, or_false] at mem
    obtain eq | eq | eq := mem <;> rw [eq] at name <;> cases name
  · rw [← split] at longer
    omega

theorem munches_first {c : Char} (unblank : c ∉ blanks) (t : Text) :
    Munches (c :: t) (first c t).1 (first c t).2 := by
  rw [first_eq]
  by_cases empty : (winner (c :: t)).2 = []
  · rw [if_pos empty]
    refine .unknown unblank fun kind p hp hprefix => ?_
    have le := length_le_winner hp hprefix
    rw [empty] at le
    exact ne_nil_of_mem_pattern hp (List.eq_nil_of_length_eq_zero (Nat.le_zero.mp le))
  · rw [if_neg empty]
    have sound := candidate_sound (winner_mem empty)
    exact .known sound.1 (sound.2 empty) (fun name dice => winner_ne_name dice name)
      fun other p => length_le_winner

end Token

/-! ### One token after the other -/

/-- The tokens of a text whose first character has the byte offset `start`. Blanks are left
out, and behind a token the next one is taken. -/
inductive Lexes : (start : Nat) → (t : Text) → List Token → Prop
  | nil (start : Nat) : Lexes start [] []
  | blank {start : Nat} {c : Char} {t : Text} {tokens : List Token} : c ∈ blanks →
      Lexes (start + c.utf8Size) t tokens → Lexes start (c :: t) tokens
  | token {start : Nat} {kind : Kind} {s rest : Text} {tokens : List Token} :
      Munches (s ++ rest) kind s → Lexes (start + s.utf8Size) rest tokens →
      Lexes start (s ++ rest) (⟨kind, start, s⟩ :: tokens)

theorem lexes_ofTextFrom (start : Nat) (t : Text) : Lexes start t (Token.ofTextFrom start t) := by
  induction start, t using Token.ofTextFrom.induct with
  | case1 start =>
    rw [Token.ofTextFrom]
    exact .nil start
  | case2 start c t blank ih =>
    rw [Token.ofTextFrom, if_pos blank]
    exact .blank (isBlank_iff.mp blank) ih
  | case3 start c t unblank token ih =>
    rw [Token.ofTextFrom, if_neg unblank]
    have munches : Munches (c :: t) token.1 token.2 :=
      Token.munches_first (fun blank => unblank (isBlank_iff.mpr blank)) t
    have split : c :: t = token.2 ++ (c :: t).drop token.2.length :=
      List.prefix_append_drop munches.beginning
    have lexed : Lexes start (token.2 ++ (c :: t).drop token.2.length) _ :=
      .token (split ▸ munches) ih
    rwa [← split] at lexed

namespace Lexes

variable {start : Nat} {t : Text} {tokens : List Token}

/-- The tokens of a text are determined. -/
theorem eq_ofTextFrom (h : Lexes start t tokens) : tokens = Token.ofTextFrom start t := by
  induction h with
  | nil start => rw [Token.ofTextFrom]
  | blank blank _ ih => rw [Token.ofTextFrom, if_pos (isBlank_iff.mpr blank), ih]
  | @token start kind s rest tokens munches _ ih =>
    obtain ⟨c, s, rfl⟩ := List.exists_cons_of_ne_nil munches.ne_nil
    have unblank : c ∉ blanks := munches.unblank c List.mem_cons_self
    obtain ⟨kind_eq, text_eq⟩ := munches.unique (Token.munches_first unblank (s ++ rest))
    rw [List.cons_append, Token.ofTextFrom, if_neg fun blank => unblank (isBlank_iff.mp blank)]
    dsimp only
    rw [← kind_eq, ← text_eq, ← List.cons_append, List.drop_left, ih]

/-- Each token stands in the text and is the longest that can start there. -/
theorem stands (h : Lexes start t tokens) : ∀ a ∈ tokens, ∃ before after,
    t = before ++ (a.text ++ after) ∧ a.start = start + before.utf8Size ∧
      Munches (a.text ++ after) a.kind a.text := by
  induction h with
  | nil => simp
  | @blank start c t tokens _ _ ih =>
    intro a ha
    obtain ⟨before, after, rfl, start_eq, munches⟩ := ih a ha
    exact ⟨c :: before, after, rfl, by rw [start_eq, Text.utf8Size_cons, Nat.add_assoc], munches⟩
  | @token start kind s rest tokens munches _ ih =>
    intro a ha
    obtain rfl | ha := List.mem_cons.mp ha
    · exact ⟨[], rest, rfl, rfl, munches⟩
    · obtain ⟨before, after, rfl, start_eq, munches⟩ := ih a ha
      exact ⟨s ++ before, after, by simp,
        by rw [start_eq, Text.utf8Size_append, Nat.add_assoc], munches⟩

theorem ordered (h : Lexes start t tokens) : tokens.Pairwise fun a b => a.stop ≤ b.start := by
  induction h with
  | nil => exact .nil
  | blank _ _ ih => exact ih
  | token _ rest ih =>
    refine .cons (fun b hb => ?_) ih
    obtain ⟨before, _, -, start_eq, -⟩ := rest.stands b hb
    rw [start_eq]
    exact Nat.le_add_right _ _

/-- A character that is in no token is a blank. -/
theorem mem_blanks (h : Lexes start t tokens) : ∀ (before : Text) c after,
    t = before ++ c :: after →
    (∀ a ∈ tokens, start + before.utf8Size < a.start ∨ a.stop ≤ start + before.utf8Size) →
    c ∈ blanks := by
  induction h with
  | nil => simp
  | @blank start d t tokens blank _ ih =>
    intro before c after split outside
    cases before with
    | nil => exact List.head_eq_of_cons_eq split ▸ blank
    | cons e before =>
      obtain ⟨rfl, rest⟩ := List.cons.inj split
      refine ih before c after rest fun a ha => ?_
      simpa [Nat.add_assoc] using outside a ha
  | @token start kind s rest tokens munches _ ih =>
    intro before c after split outside
    obtain ⟨more, rfl, behind⟩ | ⟨inside, rfl, front⟩ := List.append_eq_append_iff.mp split
    · refine ih more c after behind fun a ha => ?_
      simpa [Nat.add_assoc] using outside a (List.mem_cons_of_mem _ ha)
    · cases inside with
      | nil =>
        refine ih [] c after front.symm fun a ha => ?_
        simpa using outside a (List.mem_cons_of_mem _ ha)
      | cons d inside =>
        -- The character stands in the first token.
        have here := outside _ List.mem_cons_self
        have := d.utf8Size_pos
        simp only [Token.stop, Text.utf8Size_append, Text.utf8Size_cons] at here
        omega

/-- A token that is read in front of any text is read alone as well. -/
theorem of_munches {kind : Kind} {s : Text} (h : Munches t kind s) (start : Nat) :
    Lexes start s [⟨kind, start, s⟩] := by
  have alone : Munches (s ++ []) kind s := by
    rw [List.append_nil]
    exact h.alone
  simpa using Lexes.token alone (.nil (start + s.utf8Size))

end Lexes

/-! ### Tokens and blanks are the whole text -/

/-- The tokens, each after what stands in the text between the byte `last` or the token
before and this one. -/
def weave (t : Text) (last : Nat) : List Token → Text
  | [] => t.slice last t.utf8Size
  | a :: more => t.slice last a.start ++ a.text ++ weave t a.stop more

/-- The tokens partition the text, up to the blanks between them. -/
structure Partitions (t : Text) (tokens : List Token) : Prop where
  nonempty : ∀ a ∈ tokens, a.start < a.stop
  ordered : tokens.Pairwise fun a b => a.stop ≤ b.start
  /-- A token is the slice of the text at its place. -/
  slice_eq : ∀ a ∈ tokens, t.slice a.start a.stop = a.text
  /-- A token stands between characters of the text and is what is read there. -/
  munches : ∀ a ∈ tokens, ∃ before after : Text, t = before ++ (a.text ++ after) ∧
    before.utf8Size = a.start ∧ Munches (a.text ++ after) a.kind a.text
  unblank : ∀ a ∈ tokens, ∀ c ∈ a.text, c ∉ blanks
  /-- What stands in no token is blank. -/
  blank : ∀ (before : Text) c after, t = before ++ c :: after →
    (∀ a ∈ tokens, before.utf8Size < a.start ∨ a.stop ≤ before.utf8Size) → c ∈ blanks
  weave_eq : weave t 0 tokens = t
  /-- A token on its own is read as that token. -/
  alone : ∀ a ∈ tokens, Token.ofText a.text = [⟨a.kind, 0, a.text⟩]

theorem weave_eq_slice {t : Text} {tokens : List Token} {last : Nat}
    (ordered : tokens.Pairwise fun a b => a.stop ≤ b.start)
    (slice_eq : ∀ a ∈ tokens, t.slice a.start a.stop = a.text)
    (within : ∀ a ∈ tokens, last ≤ a.start ∧ a.stop ≤ t.utf8Size) (last_le : last ≤ t.utf8Size) :
    weave t last tokens = t.slice last t.utf8Size := by
  induction tokens generalizing last with
  | nil => rfl
  | cons a more ih =>
    obtain ⟨first, ordered⟩ := List.pairwise_cons.mp ordered
    obtain ⟨start_le, stop_le⟩ := within a List.mem_cons_self
    have inside : a.start ≤ a.stop := Nat.le_add_right _ _
    have rest := ih ordered (fun b hb => slice_eq b (List.mem_cons_of_mem _ hb))
      (fun b hb => ⟨first b hb, (within b (List.mem_cons_of_mem _ hb)).2⟩) stop_le
    rw [weave, rest, ← slice_eq a List.mem_cons_self, t.slice_append_slice start_le inside,
      t.slice_append_slice (start_le.trans inside) stop_le]

/-- A text is cut into tokens without loss.

Tokens stand in the text one after the other, each is the longest that can start at its
place, and what stands between them is blank. So the tokens and what is between them give
the text back, and each token alone is read as that token again. -/
theorem partitions_ofText (t : Text) : Partitions t (Token.ofText t) := by
  have lexed : Lexes 0 t (Token.ofText t) := lexes_ofTextFrom 0 t
  have stands := lexed.stands
  simp only [Nat.zero_add] at stands
  have slice_eq : ∀ a ∈ Token.ofText t, t.slice a.start a.stop = a.text := by
    intro a ha
    obtain ⟨before, after, split, start_eq, -⟩ := stands a ha
    rw [split, Token.stop, start_eq]
    exact Text.slice_append before a.text after
  have within : ∀ a ∈ Token.ofText t, 0 ≤ a.start ∧ a.stop ≤ t.utf8Size := by
    intro a ha
    obtain ⟨before, after, split, start_eq, -⟩ := stands a ha
    refine ⟨Nat.zero_le _, ?_⟩
    rw [split, Token.stop, start_eq, Text.utf8Size_append, Text.utf8Size_append]
    omega
  refine ⟨fun a ha => ?_, lexed.ordered, slice_eq, fun a ha => ?_, fun a ha => ?_, ?_, ?_,
    fun a ha => ?_⟩
  · obtain ⟨_, _, _, _, munches⟩ := stands a ha
    exact Nat.lt_add_of_pos_right (Text.utf8Size_pos munches.ne_nil)
  · obtain ⟨before, after, split, start_eq, munches⟩ := stands a ha
    exact ⟨before, after, split, start_eq.symm, munches⟩
  · obtain ⟨_, _, _, _, munches⟩ := stands a ha
    exact munches.unblank
  · simpa only [Nat.zero_add] using lexed.mem_blanks
  · rw [weave_eq_slice lexed.ordered slice_eq within (Nat.zero_le _), Text.slice_all]
  · obtain ⟨_, _, _, _, munches⟩ := stands a ha
    exact (Lexes.of_munches munches 0).eq_ofTextFrom.symm

example : (Token.ofText "2d6x @a.b. 2d".toList).map Token.kind =
    [.dice, .name, .reference, .unknown, .integer, .name] := by cbv

end RuleText.Formula
