import RuleText.Proofs.Enrichment.Passes
import RuleText.Proofs.Text.Replacement

/-!
# Enrichment is local

A text that is put together from plain segments and directives is enriched
directive by directive: the plain segments stay, and every directive becomes what
it becomes alone, up to the numbers of its spans (`enrich_textOf`). That holds
although three passes read the text one after the other, because a directive that
has been resolved to plain text is silent in the passes that follow.

A localized text may itself refer to further texts by keys that contain span
numbers. Then what it becomes depends on the counter, and enrichment is not local
(`not_local_of_numbered_key`); so independence of the counter is asked for
localized texts, and it is proved for all other directives.
-/

namespace RuleText.Enricher

open Directive

/-! ### What a directive does alone -/

/-- The text of a localized key, where localized texts may stand inside each other to
the given number of levels. -/
def localize (e : Enricher) (data : RollData) : Nat → Text → Resolve Text
  | 0, key => throw (.localizeDepth key e.levels)
  | levels + 1, key => e.enrichWithin data levels (e.translations.translate key)

theorem enrichWithin_eq (e : Enricher) (data : RollData) (levels : Nat) :
    e.enrichWithin data levels = enrichWith e.config data (e.localize data levels) := by
  cases levels <;> rfl

/-- The text that a directive becomes, where `localize` gives the text of a localized
key. -/
def resolveWith (data : RollData) (localize : Text → Resolve Text) (o : Occurrence) :
    Resolve Text :=
  match o.form with
  | .block => resolveBlock data localize o
  | .inline => resolveInline data o

/-- The text that a directive becomes in a text to enrich. -/
def resolve (e : Enricher) (data : RollData) : Occurrence → Resolve Text :=
  resolveWith data (e.localize data e.levels)

/-- Two runs from the counters `m` and `n` that both fail, or succeed with texts that
agree up to span numbers after as many spans. -/
inductive SameRun (m n : Nat) : Except EnrichmentError Text × Nat →
    Except EnrichmentError Text × Nat → Prop
  | ok (k : Nat) {s t : Text} : AgreeUpToIds s t → SameRun m n (.ok s, m + k) (.ok t, n + k)
  | error (e e' : EnrichmentError) (i i' : Nat) : SameRun m n (.error e, i) (.error e', i')

/-- What comes out does not depend on the counter, except for span numbers. -/
def CounterFree (x : Resolve Text) : Prop :=
  ∀ m n, SameRun m n (x m) (x n)

theorem counterFree_of_alike {x : Resolve Text} (h : Alike (SameOutcome AgreeUpToIds) x x) :
    CounterFree x := by
  intro m n
  obtain ⟨k, hm, hn, related⟩ := h m n
  rcases hx : x m with ⟨r, i⟩
  rcases hy : x n with ⟨r', i'⟩
  simp only [hx, hy] at hm hn related
  cases related with
  | ok agree =>
    subst hm hn
    exact .ok k agree
  | error e => exact .error e e i i'

/-- A directive that is replaced by a localized text. -/
def IsLocalize (o : Occurrence) : Prop :=
  o.form = .block ∧ o.name = "Localize".toList ∧ o.display = none

theorem ofBlockName_eq_localize {name : Text} (h : Kind.ofBlockName name = .localize) :
    name = "Localize".toList := by
  by_contra other
  unfold Kind.ofBlockName Kind.blockNames at h
  simp only [List.lookup_cons, List.lookup_nil] at h
  split at h
  · next same => exact other (eq_of_beq same)
  · repeat' split at h
    all_goals cases h

/-- Only localized texts can depend on the counter. -/
theorem counterFree_resolve (e : Enricher) (data : RollData) {o : Occurrence}
    (other : ¬ IsLocalize o) : CounterFree (e.resolve data o) := by
  apply counterFree_of_alike
  unfold resolve resolveWith
  cases form : o.form with
  | block =>
    unfold resolveBlock
    cases display : o.display with
    | some d => exact .pure (.ok (.refl d))
    | none =>
      cases kind : Kind.ofBlockName o.name with
      | localize => exact absurd ⟨form, ofBlockName_eq_localize kind, display⟩ other
      | uuid => exact .pure (.ok (.refl _))
      | template => exact alike_handle _ (alike_template data)
      | check => exact alike_handle _ (alike_check data)
      | damage => exact alike_handle _ (alike_damage data)
      | roll | act | unsupported => exact .pure (.error _)
  | inline =>
    unfold resolveInline
    cases display : o.display with
    | some d => exact .pure (.ok (.refl d))
    | none =>
      dsimp only
      cases Kind.ofInlineName o.name with
      | roll => exact alike_handle _ (alike_roll _)
      | act => exact alike_handle _ (alike_act data)
      | localize | uuid | template | check | damage | unsupported => exact .pure (.error _)

/-! ### The three passes -/

theorem replaceChar_of_not_mem {c : Char} (new : Text) {t : Text} (h : c ∉ t) :
    Text.replaceChar c new t = t := by
  induction t with
  | nil => rfl
  | cons d t ih =>
    obtain ⟨hd, ht⟩ : c ≠ d ∧ c ∉ t := by simpa using h
    rw [Text.replaceChar, List.flatMap_cons, if_neg (Ne.symm hd)]
    exact congrArg (d :: ·) (ih ht)

/-- The rule marker of a configuration does not stand in a text. -/
def Unmarked (config : Config) (t : Text) : Prop :=
  config.ruleMarker ≠ [] → ¬ config.ruleMarker <:+: t

/-- The rule marker of the default configuration has a line break. -/
theorem unmarked_default {t : Text} (line : '\n' ∉ t) : Unmarked .default t :=
  fun _ part => line (part.subset (by decide))

/-- On a line without rule markers there is no markup to write. -/
theorem markup_of_unmarked {config : Config} {t : Text} (line : '\n' ∉ t)
    (unmarked : Unmarked config t) : markup config t = t := by
  have marker : ¬ (config.ruleMarker ≠ [] ∧ Text.occursIn config.ruleMarker t = true) := by
    rintro ⟨nonempty, occurs⟩
    exact unmarked nonempty (Text.occursIn_iff.mp occurs)
  rw [markup, if_neg marker, replaceChar_of_not_mem _ line]

/-- A text without markup is enriched by passing over it three times. -/
theorem enrichWith_of_markup {config : Config} (data : RollData) (localize : Text → Resolve Text)
    {t : Text} (h : markup config t = t) :
    enrichWith config data localize t =
      passOver damageBlock? (resolveBlock data localize) t >>= fun t =>
        passOver block? (resolveBlock data localize) t >>= fun t =>
          passOver inline? (resolveInline data) t := by
  rw [enrichWith, h]
  rfl

theorem enrichWith_of_not_newline (data : RollData) (localize : Text → Resolve Text) {t : Text}
    (h : '\n' ∉ t) :
    enrichWith .default data localize t =
      passOver damageBlock? (resolveBlock data localize) t >>= fun t =>
        passOver block? (resolveBlock data localize) t >>= fun t =>
          passOver inline? (resolveInline data) t :=
  enrichWith_of_markup data localize (markup_of_unmarked h (unmarked_default h))

/-- Plain text stays as it is. -/
theorem enrichWith_plain (data : RollData) (localize : Text → Resolve Text) {t : Text}
    (plain : t.Plain) : enrichWith .default data localize t = pure t := by
  have at_sign : '@' ∉ t := plain.not_mem (by decide)
  have bracket : '[' ∉ t := plain.not_mem (by decide)
  rw [enrichWith_of_not_newline data localize (plain.not_mem (by decide)),
    passOver_of_silent (opensBlock_damageBlock?.startsWith.silent at_sign), pure_bind,
    passOver_of_silent (opensBlock_block?.startsWith.silent at_sign), pure_bind,
    passOver_of_silent (startsWith_inline?.silent bracket)]

/-- What a directive comes to alone, run from a counter of its own. -/
def alone (e : Enricher) (data : RollData) (start : Occurrence → Nat) : Prediction := fun o =>
  match e.resolve data o (start o) with
  | (.ok t, i) => some (t, i - start o)
  | (.error _, _) => none

theorem predicts_alone {e : Enricher} {data : RollData} {start : Occurrence → Nat}
    {o : Occurrence} (free : CounterFree (e.resolve data o))
    (plain : ∀ t, (e.resolve data o (start o)).1 = .ok t → t.Plain) :
    Predicts (e.resolve data o) (e.alone data start o) := by
  unfold alone
  rcases run : e.resolve data o (start o) with ⟨r, i⟩
  cases r with
  | error err =>
    intro id
    have same := free id (start o)
    rw [run] at same
    generalize hx : e.resolve data o id = x at same
    cases same with
    | error err' _ i' _ => exact ⟨err', i', rfl⟩
  | ok t =>
    intro id
    have same := free id (start o)
    rw [run] at same
    generalize hx : e.resolve data o id = x at same
    cases same with
    | ok k agree =>
      have shown := plain t (by rw [run])
      refine ⟨_, by rw [Nat.add_sub_cancel_left], agree.symm.plain shown, agree⟩

theorem handles_damageBlock? {segments : List Segment} (formed : ∀ s ∈ segments, s.WellFormed) :
    Handles damageBlock? Occurrence.IsDamage segments where
  plain t ht := opensBlock_damageBlock?.startsWith.silent ((formed _ ht).not_mem (by decide))
  selected o ho damage := recognizes_damageBlock? (formed _ ho) damage
  unselected o ho other := by
    cases form : o.form with
    | block => exact silent_damageBlock? (formed _ ho) form other
    | inline => exact opensBlock_damageBlock?.silent_inline (formed _ ho) form

theorem handles_block? {segments : List Segment} (formed : ∀ s ∈ segments, s.WellFormed)
    (other : ∀ o, .directive o ∈ segments → ¬ o.IsDamage) :
    Handles block? (fun o => o.form = .block) segments where
  plain t ht := opensBlock_block?.startsWith.silent ((formed _ ht).not_mem (by decide))
  selected o ho block := recognizes_block? (formed _ ho) block (other o ho)
  unselected o ho inline := by
    cases form : o.form with
    | block => exact absurd form inline
    | inline => exact opensBlock_block?.silent_inline (formed _ ho) form

theorem handles_inline? {segments : List Segment} (formed : ∀ s ∈ segments, s.WellFormed)
    (other : ∀ o, .directive o ∈ segments → o.form ≠ .block) :
    Handles inline? (fun o => o.form = .inline) segments where
  plain t ht := startsWith_inline?.silent ((formed _ ht).not_mem (by decide))
  selected o ho inline := recognizes_inline? (formed _ ho) inline
  unselected o ho block := by
    cases form : o.form with
    | block => exact absurd form (other o ho)
    | inline => exact absurd form block

/-- The three passes resolve all directives as predicted. -/
theorem ends_enrichWith (data : RollData) (localize : Text → Resolve Text)
    {segments : List Segment} (formed : ∀ s ∈ segments, s.WellFormed) {predicted : Prediction}
    (predicts : ∀ o, .directive o ∈ segments →
      Predicts (resolveWith data localize o) (predicted o)) (id : Nat) :
    Ends predicted (fun o => o.IsDamage ∨ o.form = .block ∨ o.form = .inline) segments id
      (enrichWith .default data localize (textOf segments) id) := by
  have block : ∀ o, .directive o ∈ segments → o.form = .block →
      Predicts (resolveBlock data localize o) (predicted o) := by
    intro o ho form
    have h := predicts o ho
    rwa [resolveWith, form] at h
  have inline : ∀ o, .directive o ∈ segments → o.form = .inline →
      Predicts (resolveInline data o) (predicted o) := by
    intro o ho form
    have h := predicts o ho
    rwa [resolveWith, form] at h
  rw [enrichWith_of_not_newline data localize (not_newline_mem_textOf formed)]
  refine (ends_passOver formed (handles_damageBlock? formed)
    (fun o ho damage => block o ho damage.1) id).bind fun settled i h => ?_
  have formed' := h.wellFormed formed
  refine (ends_passOver formed' (handles_block? formed' fun o ho => ((h.left o).mp ho).2)
    (fun o ho => block o ((h.left o).mp ho).1) i).bind fun settled' i' h' => ?_
  have formed'' := h'.wellFormed formed'
  exact ends_passOver formed'' (handles_inline? formed'' fun o ho => ((h'.left o).mp ho).2)
    (fun o ho => inline o ((h.left o).mp ((h'.left o).mp ho).1).1) i'

/-- After the three passes no directive is left: the text is the one predicted, and the
numbers that were predicted have been used up. -/
theorem enrichWith_textOf (data : RollData) (localize : Text → Resolve Text)
    {segments : List Segment} (formed : ∀ s ∈ segments, s.WellFormed) {predicted : Prediction}
    (predicts : ∀ o, .directive o ∈ segments →
      Predicts (resolveWith data localize o) (predicted o)) (id : Nat) :
    (∃ e i o, enrichWith .default data localize (textOf segments) id = (.error e, i) ∧
      .directive o ∈ segments ∧ predicted o = none) ∨
    ∃ t, enrichWith .default data localize (textOf segments) id =
        (.ok t, id + predicted.pending segments) ∧
      AgreeUpToIds t (segments.flatMap predicted.text) ∧
      ∀ o, .directive o ∈ segments → predicted o ≠ none := by
  have ends := ends_enrichWith data localize formed predicts id
  generalize enrichWith .default data localize (textOf segments) id = result at ends
  cases ends with
  | @failed o e i mem fails => exact .inl ⟨e, i, o, rfl, mem, fails⟩
  | settled settled i h sum =>
    have none_left : ∀ o, .directive o ∉ settled := by
      intro o mem
      have other := ((h.left o).mp mem).2
      cases form : o.form with
      | block => exact other (.inr (.inl form))
      | inline => exact other (.inr (.inr form))
    obtain ⟨agree, pending, found⟩ := Prediction.settles_of_no_directive h.settles none_left
    refine .inr ⟨textOf settled, ?_, agree, found⟩
    rw [← sum, pending, Nat.add_zero]

theorem alone_eq_none {e : Enricher} {data : RollData} {start : Occurrence → Nat}
    {o : Occurrence} :
    e.alone data start o = none ↔ ∀ t, (e.resolve data o (start o)).1 ≠ .ok t := by
  unfold alone
  rcases e.resolve data o (start o) with ⟨r, i⟩
  cases r with
  | error err =>
    constructor
    · rintro - t ⟨⟩
    · exact fun _ => rfl
  | ok t =>
    constructor
    · rintro ⟨⟩
    · exact fun h => absurd rfl (h t)

/-- Enrichment with the default configuration is local: it succeeds if every directive
does so alone, and then every directive has become what it becomes alone, up to span
numbers, and as many numbers have been used up. Each directive may be run alone from
a counter of its own. -/
theorem enrich_textOf (table : Translations) (data : RollData) (segments : List Segment)
    (formed : ∀ s ∈ segments, s.WellFormed) (start : Occurrence → Nat)
    (plain : ∀ o, .directive o ∈ segments → ∀ t,
      (resolve ⟨.default, table⟩ data o (start o)).1 = .ok t → t.Plain)
    (free : ∀ o, .directive o ∈ segments → IsLocalize o →
      CounterFree (resolve ⟨.default, table⟩ data o)) (id : Nat) :
    ((∃ t, (enrich ⟨.default, table⟩ data (textOf segments) id).1 = .ok t) ↔
      ∀ o, .directive o ∈ segments → ∃ t, (resolve ⟨.default, table⟩ data o (start o)).1 = .ok t) ∧
    ∀ t i, enrich ⟨.default, table⟩ data (textOf segments) id = (.ok t, i) →
      AgreeUpToIds t (segments.flatMap (alone ⟨.default, table⟩ data start).text) ∧
        i = id + (alone ⟨.default, table⟩ data start).pending segments := by
  have predicts : ∀ o, .directive o ∈ segments →
      Predicts (resolve ⟨.default, table⟩ data o) (alone ⟨.default, table⟩ data start o) := by
    intro o ho
    refine predicts_alone ?_ (plain o ho)
    by_cases localizes : IsLocalize o
    · exact free o ho localizes
    · exact counterFree_resolve _ data localizes
  rw [enrich, enrichWithin_eq]
  rcases enrichWith_textOf data _ formed predicts id with ⟨e, i, o, failed, mem, fails⟩ |
    ⟨text, done, agree, found⟩
  · rw [failed]
    refine ⟨⟨?_, fun succeed => ?_⟩, ?_⟩
    · rintro ⟨t, ⟨⟩⟩
    · obtain ⟨t, ht⟩ := succeed o mem
      exact absurd ht (alone_eq_none.mp fails t)
    · rintro t i ⟨⟩
  · rw [done]
    refine ⟨⟨fun _ o ho => ?_, fun _ => ⟨text, rfl⟩⟩, ?_⟩
    · by_contra failing
      exact found o ho (alone_eq_none.mpr fun t ht => failing ⟨t, ht⟩)
    · rintro t i ⟨⟩
      exact ⟨agree, rfl⟩

/-! ### A mixed text -/

/-- Damage in words, which becomes a span of its words. -/
def damageWords : Occurrence := ⟨.block, "Damage".toList, ['?'], none⟩

/-- A localized text. -/
def localizedKey : Occurrence := ⟨.block, "Localize".toList, ['k'], none⟩

/-- What the damage becomes. -/
def wordsSpan (id : Nat) : Text := spanText id ['?'] "damage".toList

theorem parse_words : ∃ e, Formula.parse ['?'] = .error e := by
  have tokens : Formula.Token.ofText ['?'] = [⟨.unknown, 0, ['?']⟩] := by decide +kernel
  have failed : ∃ fault, Formula.Parser.ofTokens [⟨.unknown, 0, ['?']⟩] = .error fault := by
    simp only [Formula.Parser.ofTokens, Formula.Parser.formula, Formula.Parser.addition,
      Formula.Parser.product, Formula.Parser.signed, Formula.Parser.value, Formula.Parser.atom]
    exact ⟨_, rfl⟩
  obtain ⟨fault, failed⟩ := failed
  rw [Formula.parse, tokens, failed]
  exact ⟨_, rfl⟩

/-- The formula of the damage is its only argument. -/
theorem damage_words (data : RollData) (id : Nat) :
    damage data (.ofText ['?'] '|' ':' "@Damage".toList) id =
      (match Damage.Payload.ofText data ['?'] with
        | .error e => Handler.fail (.evaluation e)
        | .ok (.evaluated i) => do
          let inner ← damageText { i with shortLabel := false }
          span inner "damage".toList
        | .ok (.literal text _) => span text "damage".toList : Handler Text)
      ⟨['?'], "@Damage".toList, [⟨['?'], ['?'], true⟩]⟩ id :=
  rfl

theorem resolveBlock_damageWords (data : RollData) (localize : Text → Resolve Text) (id : Nat) :
    resolveBlock data localize damageWords id =
      (.ok (wordsSpan id), id + 1) := by
  obtain ⟨e, failed⟩ := parse_words
  have payload : Damage.Payload.ofText data ['?'] = .ok (.literal ['?'] e) := by
    rw [Damage.Payload.ofText, failed]
  have kind : Kind.ofBlockName "Damage".toList = .damage := by decide
  simp only [resolveBlock, damageWords, kind]
  rw [handle, damage_words, payload]
  rfl

theorem exists_wordsSpan_eq_cons (id : Nat) : ∃ t, wordsSpan id = '<' :: t :=
  ⟨_, rfl⟩

theorem plain_wordsSpan (id : Nat) : (wordsSpan id).Plain := by
  rw [wordsSpan, spanText_eq, Text.plain_append, plain_spanOpening]
  decide

theorem wellFormed_of_payload {name payload : Text} (name_ne_nil : name ≠ [])
    (name_word : name.all Text.isWord = true) (payload_ne_nil : payload ≠ [])
    (plain : payload.Plain) : (⟨.block, name, payload, none⟩ : Occurrence).WellFormed where
  name_ne_nil := name_ne_nil
  name_word := List.all_eq_true.mp name_word
  payload_ne_nil := payload_ne_nil
  payload_line := plain.not_mem (by decide)
  payload_braces := ⟨plain.not_mem (by decide), plain.not_mem (by decide)⟩
  payload_brackets := .inl ⟨plain.not_mem (by decide), plain.not_mem (by decide)⟩
  display_plain d hd := nomatch hd

/-- A text for the key of a localized text. -/
def coldKey : Translations := Translations.empty.insert ['k'] "cold".toList

theorem resolve_localizedKey_cold (data : RollData) :
    resolve ⟨.default, coldKey⟩ data localizedKey = pure "cold".toList := by
  have key : coldKey.translate ['k'] = "cold".toList := Translations.translate_insert_self _ _ _
  have start : resolve ⟨.default, coldKey⟩ data localizedKey =
      localize ⟨.default, coldKey⟩ data 32 ['k'] := rfl
  rw [start, localize, key, enrichWithin_eq]
  exact enrichWith_plain data _ (by decide)

/-- A localized text, plain text and damage. -/
def coldWords : List Segment :=
  [.directive localizedKey, .plain " or ".toList, .directive damageWords]

theorem enrich_coldWords :
    ∃ t, enrich ⟨.default, coldKey⟩ .empty (textOf coldWords) 7 = (.ok t, 8) ∧
      AgreeUpToIds t ("cold or ".toList ++ wordsSpan 1) := by
  have cold (id : Nat) : resolve ⟨.default, coldKey⟩ .empty localizedKey id =
      (.ok "cold".toList, id) := by
    rw [resolve_localizedKey_cold]
    rfl
  have damage (id : Nat) : resolve ⟨.default, coldKey⟩ .empty damageWords id =
      (.ok (wordsSpan id), id + 1) :=
    resolveBlock_damageWords .empty (localize ⟨.default, coldKey⟩ .empty 32) id
  have only (o : Occurrence) (ho : .directive o ∈ coldWords) :
      o = localizedKey ∨ o = damageWords := by
    simpa [coldWords] using ho
  have isLocal := enrich_textOf coldKey .empty coldWords ?_ (fun _ => 1) ?_ ?_ 7
  · obtain ⟨t, done⟩ := isLocal.1.mpr fun o ho => by
      rcases only o ho with rfl | rfl
      · exact ⟨_, by rw [cold]⟩
      · exact ⟨_, by rw [damage]⟩
    rcases run : enrich ⟨.default, coldKey⟩ .empty (textOf coldWords) 7 with ⟨r, i⟩
    obtain rfl : r = .ok t := by rw [← done, run]
    obtain ⟨agree, counter⟩ := isLocal.2 t i run
    have predicted : alone ⟨.default, coldKey⟩ .empty (fun _ => 1) localizedKey =
          some ("cold".toList, 0) ∧
        alone ⟨.default, coldKey⟩ .empty (fun _ => 1) damageWords = some (wordsSpan 1, 1) := by
      simp [alone, cold, damage]
    simp only [coldWords, List.flatMap_cons, List.flatMap_nil, Prediction.text, predicted,
      Prediction.pending_cons, Prediction.pending_nil, Prediction.spans] at agree counter
    have eight : i = 8 := counter
    refine ⟨t, by rw [eight], ?_⟩
    simpa using agree
  · intro s hs
    rcases List.mem_cons.mp hs with rfl | hs
    · exact wellFormed_of_payload (by decide) (by decide) (by decide) (by decide)
    rcases List.mem_pair.mp hs with rfl | rfl
    · exact (by decide : Text.Plain " or ".toList)
    · exact wellFormed_of_payload (by decide) (by decide) (by decide) (by decide)
  · intro o ho t ht
    rcases only o ho with rfl | rfl
    · rw [cold] at ht
      cases ht
      decide
    · rw [damage] at ht
      cases ht
      exact plain_wordsSpan 1
  · intro o ho localizes
    rcases only o ho with rfl | rfl
    · rw [resolve_localizedKey_cold]
      exact fun m n => .ok 0 (.refl _)
    · exact absurd localizes.2.1 (by decide)

/-! ### Localized texts that depend on the counter -/

/-- A text that refers to the text of a key with a span number, and an unknown
directive for the number two. -/
def numberedKeys : Translations :=
  (Translations.empty.insert ['k'] "@Localize[@Damage[?]]".toList).insert
    (wordsSpan 2) "@Nope[z]".toList

theorem enrichWith_nested (data : RollData) (localize : Text → Resolve Text) (id : Nat) :
    enrichWith .default data localize "@Localize[@Damage[?]]".toList id =
      (localize (wordsSpan id) >>= passOver inline? (resolveInline data))
        (id + 1) := by
  have lead : Silent damageBlock? "@Localize[".toList :=
    .cons (fun _ => rfl) (opensBlock_damageBlock?.startsWith.silent (by decide))
  have last : Silent damageBlock? [']'] := opensBlock_damageBlock?.startsWith.silent (by decide)
  have split : "@Localize[@Damage[?]]".toList =
      "@Localize[".toList ++ (damageWords.text ++ [']']) :=
    by decide
  have damage :
      passOver damageBlock? (resolveBlock data localize) "@Localize[@Damage[?]]".toList id =
      (.ok ("@Localize[".toList ++ (wordsSpan id ++ [']'])), id + 1) := by
    rw [split, passOver_between lead last (by decide)]
    exact map_run_ok (resolveBlock_damageWords data localize id)
  have nonempty : wordsSpan id ≠ [] := by
    obtain ⟨t, start⟩ := exists_wordsSpan_eq_cons id
    rw [start]
    exact List.cons_ne_nil '<' t
  let o : Occurrence := ⟨.block, "Localize".toList, wordsSpan id, none⟩
  have formed : o.WellFormed :=
    wellFormed_of_payload (by decide) (by decide) nonempty (plain_wordsSpan id)
  have other : ¬ o.IsDamage := fun damage =>
    absurd (show "Localize".toList = "Damage".toList from damage.2) (by decide)
  have block : passOver block? (resolveBlock data localize) o.text = resolveBlock data localize o :=
    passOver_directive (recognizes_block? formed rfl other)
  have text : o.text = "@Localize[".toList ++ (wordsSpan id ++ [']']) := by
    simp [o, Occurrence.text, displayText]
  rw [enrichWith_of_not_newline data localize (by decide), bind_run_ok damage, ← text, block]
  rfl

theorem enrichWith_nope (data : RollData) (localize : Text → Resolve Text) (id : Nat) :
    enrichWith .default data localize "@Nope[z]".toList id =
      (.error (.unknownDirective "@Nope[z]".toList), id) := by
  let o : Occurrence := ⟨.block, "Nope".toList, ['z'], none⟩
  have formed : o.WellFormed :=
    wellFormed_of_payload (by decide) (by decide) (by decide) (by decide)
  have other : ¬ o.IsDamage := by decide
  have text : "@Nope[z]".toList = o.text := by decide
  have block : passOver block? (resolveBlock data localize) o.text = resolveBlock data localize o :=
    passOver_directive (recognizes_block? formed rfl other)
  have unknown : resolveBlock data localize o id = (.error (.unknownDirective o.text), id) := rfl
  rw [enrichWith_of_not_newline _ _ (by decide), text,
    passOver_of_silent (silent_damageBlock? formed rfl other), pure_bind, block]
  exact bind_run_error unknown

theorem resolve_localizedKey (data : RollData) (id : Nat) :
    resolve ⟨.default, numberedKeys⟩ data localizedKey id =
      (localize ⟨.default, numberedKeys⟩ data 31 (wordsSpan id) >>=
        passOver inline? (resolveInline data)) (id + 1) := by
  have key : numberedKeys.translate ['k'] = "@Localize[@Damage[?]]".toList := by decide
  have start : resolve ⟨.default, numberedKeys⟩ data localizedKey =
      localize ⟨.default, numberedKeys⟩ data 32 ['k'] := rfl
  rw [start, localize, key, enrichWithin_eq, enrichWith_nested]

theorem translate_wordsSpan_two : numberedKeys.translate (wordsSpan 2) = "@Nope[z]".toList :=
  Translations.translate_insert_self _ _ _

theorem translate_wordsSpan {id : Nat} (other : wordsSpan id ≠ wordsSpan 2) :
    numberedKeys.translate (wordsSpan id) = wordsSpan id := by
  have first : wordsSpan id ≠ ['k'] := by
    obtain ⟨t, start⟩ := exists_wordsSpan_eq_cons id
    rw [start]
    simp
  rw [numberedKeys, Translations.translate_insert_of_ne _ _ other,
    Translations.translate_insert_of_ne _ _ first, Translations.translate_empty]

theorem resolve_localizedKey_of_eq (data : RollData) {id : Nat}
    (second : wordsSpan id = wordsSpan 2) :
    ∃ e i, resolve ⟨.default, numberedKeys⟩ data localizedKey id = (.error e, i) := by
  rw [resolve_localizedKey, localize, enrichWithin_eq, second, translate_wordsSpan_two]
  exact ⟨_, _, bind_run_error (enrichWith_nope data _ (id + 1))⟩

theorem resolve_localizedKey_of_ne (data : RollData) {id : Nat}
    (other : wordsSpan id ≠ wordsSpan 2) :
    resolve ⟨.default, numberedKeys⟩ data localizedKey id = (.ok (wordsSpan id), id + 1) := by
  have plain := plain_wordsSpan id
  have silent : Silent inline? (wordsSpan id) :=
    startsWith_inline?.silent (plain.not_mem (by decide))
  rw [resolve_localizedKey, localize, enrichWithin_eq, translate_wordsSpan other]
  change (enrichWith .default data _ _ >>= _) _ = _
  rw [enrichWith_plain data _ plain, pure_bind, passOver_of_silent silent]
  rfl

/-- Behind another directive with a span the localized text fails. -/
theorem enrich_localizedKey_error (data : RollData) :
    ∃ e i, enrich ⟨.default, numberedKeys⟩ data
      (textOf [.directive damageWords, .directive localizedKey]) 1 = (.error e, i) := by
  have formed : localizedKey.WellFormed :=
    wellFormed_of_payload (by decide) (by decide) (by decide) (by decide)
  have silent : Silent damageBlock? localizedKey.text := silent_damageBlock? formed rfl (by decide)
  have damage : passOver damageBlock?
      (resolveBlock data (localize ⟨.default, numberedKeys⟩ data 32))
      (damageWords.text ++ localizedKey.text) 1 = (.ok (wordsSpan 1 ++ localizedKey.text), 2) := by
    rw [passOver_recognized (by decide), bind_run_ok (resolveBlock_damageWords data _ 1),
      passOver_of_silent silent]
    rfl
  have before : Silent block? (wordsSpan 1) :=
    opensBlock_block?.startsWith.silent ((plain_wordsSpan 1).not_mem (by decide))
  have block : passOver block? (resolveBlock data (localize ⟨.default, numberedKeys⟩ data 32))
      localizedKey.text = resolve ⟨.default, numberedKeys⟩ data localizedKey :=
    passOver_directive (recognizes_block? formed rfl (by decide))
  obtain ⟨e, i, failed⟩ := resolve_localizedKey_of_eq data (rfl : wordsSpan 2 = wordsSpan 2)
  refine ⟨e, i, ?_⟩
  have text : textOf [.directive damageWords, .directive localizedKey] =
      damageWords.text ++ localizedKey.text := by decide
  rw [text, enrich, enrichWithin_eq]
  change enrichWith .default data (localize ⟨.default, numberedKeys⟩ data 32) _ 1 = _
  rw [enrichWith_of_not_newline _ _ (by decide), bind_run_ok damage, passOver_silent before, block]
  exact bind_run_error (map_run_error failed)

/-- Enrichment is not local when a localized text depends on the counter: alone the
localized text is a span, but behind another span it refers to an unknown directive. -/
theorem not_local_of_numbered_key :
    ¬ ∀ (table : Translations) (data : RollData) (segments : List Segment),
      (∀ s ∈ segments, s.WellFormed) →
      (∀ o, .directive o ∈ segments → ∀ id t,
        (resolve ⟨.default, table⟩ data o id).1 = .ok t → t.Plain) →
      ((∃ t, (enrich ⟨.default, table⟩ data (textOf segments) firstId).1 = .ok t) ↔
        ∀ o, .directive o ∈ segments →
          ∃ t, (resolve ⟨.default, table⟩ data o firstId).1 = .ok t) := by
  intro isLocal
  have formed : ∀ s ∈ [Segment.directive damageWords, .directive localizedKey], s.WellFormed := by
    intro s hs
    rcases List.mem_pair.mp hs with rfl | rfl
    · exact wellFormed_of_payload (by decide) (by decide) (by decide) (by decide)
    · exact wellFormed_of_payload (by decide) (by decide) (by decide) (by decide)
  have damage (id : Nat) : resolve ⟨.default, numberedKeys⟩ .empty damageWords id =
      (.ok (wordsSpan id), id + 1) :=
    resolveBlock_damageWords .empty (localize ⟨.default, numberedKeys⟩ .empty 32) id
  have succeed := (isLocal numberedKeys .empty _ formed ?_).mpr ?_
  · obtain ⟨t, succeed⟩ := succeed
    obtain ⟨e, i, failed⟩ := enrich_localizedKey_error .empty
    rw [firstId, failed] at succeed
    cases succeed
  · intro o ho id t ht
    rcases List.mem_pair.mp ho with h | h <;> cases h
    · rw [damage] at ht
      cases ht
      exact plain_wordsSpan id
    · by_cases second : wordsSpan id = wordsSpan 2
      · obtain ⟨e, i, failed⟩ := resolve_localizedKey_of_eq .empty second
        rw [failed] at ht
        cases ht
      · rw [resolve_localizedKey_of_ne .empty second] at ht
        cases ht
        exact plain_wordsSpan id
  · intro o ho
    rcases List.mem_pair.mp ho with h | h <;> cases h
    · exact ⟨_, by rw [damage]⟩
    · have first : wordsSpan 1 ≠ wordsSpan 2 := by decide
      exact ⟨_, by rw [firstId, resolve_localizedKey_of_ne .empty first]⟩

end RuleText.Enricher
