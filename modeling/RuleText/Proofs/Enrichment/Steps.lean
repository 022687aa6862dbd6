import Mathlib.Logic.Relation
import RuleText.Proofs.Directive.Scanning
import RuleText.Proofs.Enrichment.Depth

/-!
# Enrichment step by step

Enrichment of a text is a recursion through localized texts, which may refer to each
other in a cycle. Here it is taken apart into steps on a stack: the text that is being
enriched is on top, and below it are the texts that wait for it. Nothing but the
configured limit keeps the stack from growing, and without a limit a run need not end.

With a limit the stack never grows above it and every run ends, with what `enrich` gives
(`endsWith_enrich`). Where the run under a limit is not cut off, the runs under greater
limits, and the run without a limit, end in the same way (`limit_only_cuts_off`).
-/

namespace RuleText.Enricher

open Directive

/-- A text that is being enriched: the pass that goes on over it, what the pass has
written and what it has still to read. -/
structure Level where
  pass : Pass
  written : Text
  pieces : List Piece

/-- The first pass over a text. -/
def Level.start (config : Config) (t : Text) : Level :=
  ⟨.damage, [], scan damageBlock? (markup config t)⟩

/-- How far enrichment has come: at a text, below which others wait for it, or to an
end. The number for the next span goes along. -/
inductive State where
  | running (top : Level) (waiting : List Level) (id : Nat)
  | ended (result : Except EnrichmentError Text) (id : Nat)

namespace State

/-- How many texts wait. -/
def depth : State → Nat
  | running _ waiting _ => waiting.length
  | ended _ _ => 0

/-- What comes to the text on top: a piece of text to write, or an error, which ends
the run. -/
def give (top : Level) (waiting : List Level) : Except EnrichmentError Text × Nat → State
  | (.ok t, id) => running { top with written := top.written ++ t } waiting id
  | (.error e, id) => ended (.error e) id

/-- What comes of the text on top goes to the text that waits for it, or is the end. -/
def finish (waiting : List Level) (outcome : Except EnrichmentError Text × Nat) : State :=
  match waiting with
  | [] => ended outcome.1 outcome.2
  | caller :: waiting => give caller waiting outcome

@[simp] theorem finish_cons (caller : Level) (waiting : List Level)
    (outcome : Except EnrichmentError Text × Nat) :
    finish (caller :: waiting) outcome = give caller waiting outcome := rfl

@[simp] theorem finish_error (waiting : List Level) (e : EnrichmentError) (id : Nat) :
    finish waiting (.error e, id) = ended (.error e) id := by
  cases waiting <;> rfl

end State

/-- How a pass resolves directives. -/
def resolveIn (data : RollData) (localize : Text → Resolve Text) :
    Pass → Occurrence → Resolve Text
  | .damage | .block => resolveBlock data localize
  | .inline => resolveInline data

/-- The key of a directive that the pass replaces by a localized text. -/
def keyOf? (pass : Pass) (o : Occurrence) : Option Text :=
  if pass ≠ .inline ∧ o.display = none ∧ Kind.ofBlockName o.name = .localize then
    some o.payload
  else none

/-- The limit, if no text may be localized while so many wait. -/
def limitAt (limit : Option UInt64) (depth : Nat) : Option Nat :=
  limit.bind fun limit => if limit.toNat ≤ depth then some limit.toNat else none

/-- The text on top asks for a localized text. That is put on top of it, if the limit
allows it. -/
def ask (e : Enricher) (top : Level) (waiting : List Level) (key : Text) (id : Nat) : State :=
  match limitAt e.config.maxLocalizeDepth waiting.length with
  | some limit => .ended (.error (.localizeDepth key limit)) id
  | none => .running (.start e.config (e.translations.translate key)) (top :: waiting) id

/-- One step: a pass reads a piece, or the next pass starts, or a text is finished. -/
def step (e : Enricher) (data : RollData) : State → State
  | .running ⟨pass, written, .plain c :: pieces⟩ waiting id =>
    .running ⟨pass, written ++ [c], pieces⟩ waiting id
  | .running ⟨pass, written, .directive o :: pieces⟩ waiting id =>
    match keyOf? pass o with
    | some key => e.ask ⟨pass, written, pieces⟩ waiting key id
    -- No key is asked for here, so it does not matter what would become of one.
    | none => .give ⟨pass, written, pieces⟩ waiting (resolveIn data pure pass o id)
  | .running ⟨.damage, written, []⟩ waiting id =>
    .running ⟨.block, [], scan block? written⟩ waiting id
  | .running ⟨.block, written, []⟩ waiting id =>
    .running ⟨.inline, [], scan inline? written⟩ waiting id
  | .running ⟨.inline, written, []⟩ waiting id => .finish waiting (.ok written, id)
  | .ended result id => .ended result id

/-- The second state is reached from the first one in some number of steps. -/
def Reaches (e : Enricher) (data : RollData) : State → State → Prop :=
  Relation.ReflTransGen fun s s' => e.step data s = s'

/-- The first state of a run. -/
def initial (e : Enricher) (t : Text) (id : Nat) : State :=
  .running (.start e.config t) [] id

section Runs

variable {e : Enricher} {data : RollData}

/-! ### The stack stays within the limit -/

theorem lt_of_limitAt {limit : UInt64} {depth : Nat} (h : limitAt (some limit) depth = none) :
    depth < limit.toNat := by
  by_contra reached
  simp [limitAt, Nat.not_lt.mp reached] at h

theorem limitAt_eq_none {limit : Option UInt64} {depth : Nat}
    (h : ∀ l, limit = some l → depth < l.toNat) : limitAt limit depth = none := by
  cases limit with
  | none => rfl
  | some l => simp [limitAt, h l rfl]

theorem depth_give_le (top : Level) (waiting : List Level)
    (outcome : Except EnrichmentError Text × Nat) :
    (State.give top waiting outcome).depth ≤ waiting.length := by
  obtain ⟨_ | _, id⟩ := outcome
  · exact Nat.zero_le _
  · exact Nat.le_refl _

theorem depth_ask_le {limit : UInt64} (limited : e.config.maxLocalizeDepth = some limit)
    (top : Level) (waiting : List Level) (key : Text) (id : Nat) :
    (e.ask top waiting key id).depth ≤ limit.toNat := by
  rw [ask, limited]
  cases reached : limitAt (some limit) waiting.length with
  | some limit' => exact Nat.zero_le _
  | none => exact lt_of_limitAt reached

/-- Only asking for a localized text adds to the stack, and the limit stands before
that. -/
theorem depth_step_le {limit : UInt64} (limited : e.config.maxLocalizeDepth = some limit)
    {s : State} (h : s.depth ≤ limit.toNat) : (e.step data s).depth ≤ limit.toNat := by
  fun_cases step e data s with
  | case1 => exact h
  | case2 => exact depth_ask_le limited _ _ _ _
  | case3 => exact Nat.le_trans (depth_give_le _ _ _) h
  | case4 => exact h
  | case5 => exact h
  | case6 written waiting id =>
    cases waiting with
    | nil => exact Nat.zero_le _
    | cons caller waiting =>
      rw [State.finish_cons]
      exact Nat.le_trans (depth_give_le caller waiting _) (Nat.le_of_succ_le h)
  | case7 => exact h

theorem depth_le_of_reaches {limit : UInt64} (limited : e.config.maxLocalizeDepth = some limit)
    {s s' : State} (start : s.depth ≤ limit.toNat) (h : e.Reaches data s s') :
    s'.depth ≤ limit.toNat := by
  induction h with
  | refl => exact start
  | tail _ last ih =>
    subst last
    exact depth_step_le limited ih

/-! ### Steps and passes -/

theorem Reaches.step_then {s s' : State} (h : e.Reaches data (e.step data s) s') :
    e.Reaches data s s' :=
  .head rfl h

theorem resolveIn_of_keyOf?_eq_some {localize : Text → Resolve Text} {pass : Pass}
    {o : Occurrence} {key : Text} (h : keyOf? pass o = some key) :
    resolveIn data localize pass o = localize key := by
  obtain ⟨⟨block, unshown, kind⟩, payload⟩ := Option.ite_none_right_eq_some.mp h
  obtain rfl : o.payload = key := Option.some.inj payload
  cases pass with
  | damage | block => exact resolveBlock_of_localize data unshown kind
  | inline => exact absurd rfl block

theorem resolveIn_of_keyOf?_eq_none (localize localize' : Text → Resolve Text) {pass : Pass}
    {o : Occurrence} (h : keyOf? pass o = none) :
    resolveIn data localize pass o = resolveIn data localize' pass o := by
  have block (inside : pass ≠ .inline) :
      resolveBlock data localize o = resolveBlock data localize' o := by
    refine resolveBlock_of_not_localize data localize localize' fun localized => ?_
    rw [keyOf?, if_pos ⟨inside, localized⟩] at h
    cases h
  cases pass with
  | damage => exact block (by decide)
  | block => exact block (by decide)
  | inline => rfl

theorem give_map (pass : Pass) (written : Text) (pieces : List Piece) (waiting : List Level)
    (t : Text) (x : Resolve Text) (id : Nat) :
    State.give ⟨pass, written, pieces⟩ waiting (((t ++ ·) <$> x : Resolve Text) id) =
      .give ⟨pass, written ++ t, pieces⟩ waiting (x id) := by
  rcases run : x id with ⟨_ | s, i⟩
  · rw [map_run_error run]
    rfl
  · rw [map_run_ok run]
    simp [State.give]

/-- Asking for a key comes to what `localize` gives. A result that is cut off counts only
where the limit is `exact`. -/
def Answers (e : Enricher) (data : RollData) (exact : Prop) (waiting : List Level)
    (localize : Text → Resolve Text) : Prop :=
  ∀ top key id, (IsCut (localize key id).1 → exact) →
    e.Reaches data (e.ask top waiting key id) (.give top waiting (localize key id))

variable {exact : Prop} {waiting : List Level} {localize : Text → Resolve Text}

theorem reaches_directive (answers : Answers e data exact waiting localize) {pass : Pass}
    {written : Text} {o : Occurrence} {pieces : List Piece} {id : Nat}
    (whole : IsCut (resolveIn data localize pass o id).1 → exact) :
    e.Reaches data (.running ⟨pass, written, .directive o :: pieces⟩ waiting id)
      (.give ⟨pass, written, pieces⟩ waiting (resolveIn data localize pass o id)) := by
  apply Reaches.step_then
  cases asked : keyOf? pass o with
  | some key =>
    rw [resolveIn_of_keyOf?_eq_some asked] at whole ⊢
    simp only [step, asked]
    exact answers _ key id whole
  | none =>
    rw [resolveIn_of_keyOf?_eq_none localize pure asked]
    simp only [step, asked]
    exact .refl

theorem isCut_map {t : Text} {x : Resolve Text} {id : Nat} :
    IsCut (((t ++ ·) <$> x : Resolve Text) id).1 ↔ IsCut (x id).1 := by
  rcases run : x id with ⟨_ | s, i⟩
  · rw [map_run_error run]
  · rw [map_run_ok run]
    exact iff_of_false (not_isCut_ok _) (not_isCut_ok _)

/-- One computation after the other: where the first fails the run has ended, and where it
succeeds the run goes on with the second. -/
theorem reaches_bind {x : Resolve Text} {f : Text → Resolve Text} {s : State} {id : Nat}
    {first last : Except EnrichmentError Text × Nat → State}
    (fails : ∀ err i, first (.error err, i) = last (.error err, i))
    (now : (IsCut (x id).1 → exact) → e.Reaches data s (first (x id)))
    (later : ∀ t i, (IsCut (f t i).1 → exact) → e.Reaches data (first (.ok t, i)) (last (f t i)))
    (whole : IsCut ((x >>= f) id).1 → exact) : e.Reaches data s (last ((x >>= f) id)) := by
  rcases run : x id with ⟨err | t, i⟩
  · rw [bind_run_error run] at whole ⊢
    rw [run, fails] at now
    exact now whole
  · rw [bind_run_ok run] at whole ⊢
    rw [run] at now
    exact (now fun cut => absurd cut (not_isCut_ok t)).trans (later t i whole)

/-- A pass over pieces comes to the text in which the directives have been replaced. -/
theorem reaches_pass (answers : Answers e data exact waiting localize) (pass : Pass)
    (written : Text) (pieces : List Piece) (id : Nat)
    (whole : IsCut (Directive.replaceAll (resolveIn data localize pass) pieces id).1 → exact) :
    e.Reaches data (.running ⟨pass, written, pieces⟩ waiting id)
      (.give ⟨pass, written, []⟩ waiting
        (Directive.replaceAll (resolveIn data localize pass) pieces id)) := by
  induction pieces generalizing written id with
  | nil =>
    change e.Reaches data _ (.running ⟨pass, written ++ [], []⟩ waiting id)
    rw [List.append_nil]
    exact .refl
  | cons piece pieces ih =>
    cases piece with
    | plain c =>
      have read : Directive.replaceAll (resolveIn data localize pass) (.plain c :: pieces) =
          ([c] ++ ·) <$> Directive.replaceAll (resolveIn data localize pass) pieces := by
        simp [Directive.replaceAll]
      rw [read, isCut_map] at whole
      rw [read, give_map]
      exact .step_then (ih (written ++ [c]) id whole)
    | directive o =>
      have read : Directive.replaceAll (resolveIn data localize pass) (.directive o :: pieces) =
          resolveIn data localize pass o >>= fun t =>
            (t ++ ·) <$> Directive.replaceAll (resolveIn data localize pass) pieces := by
        simp [Directive.replaceAll]
      rw [read] at whole ⊢
      refine reaches_bind ?_ (reaches_directive answers) ?_ whole
      · exact fun _ _ => rfl
      · intro t i whole
        rw [isCut_map] at whole
        rw [give_map]
        exact ih (written ++ t) i whole

/-- After a pass the passes that follow go on with what it has written. -/
theorem reaches_pass_then (answers : Answers e data exact waiting localize) (pass : Pass)
    (pieces : List Piece) (next : Text → Resolve Text) (id : Nat)
    (whole : IsCut ((Directive.replaceAll (resolveIn data localize pass) pieces >>= next) id).1 →
      exact)
    (later : ∀ t i, (IsCut (next t i).1 → exact) →
      e.Reaches data (.running ⟨pass, t, []⟩ waiting i) (.finish waiting (next t i))) :
    e.Reaches data (.running ⟨pass, [], pieces⟩ waiting id)
      (.finish waiting
        ((Directive.replaceAll (resolveIn data localize pass) pieces >>= next) id)) := by
  refine reaches_bind ?_ (reaches_pass answers pass [] pieces id) later whole
  intro err i
  rw [State.finish_error]
  rfl

/-- A text on top is finished with what `enrichWith` gives. -/
theorem reaches_enrichWith (answers : Answers e data exact waiting localize) (t : Text) (id : Nat)
    (whole : IsCut (enrichWith e.config data localize t id).1 → exact) :
    e.Reaches data (.running (.start e.config t) waiting id)
      (.finish waiting (enrichWith e.config data localize t id)) := by
  apply reaches_pass_then answers .damage (scan damageBlock? (markup e.config t)) _ id whole
  intro t i whole
  apply Reaches.step_then
  apply reaches_pass_then answers .block (scan block? t) _ i whole
  intro t i whole
  apply Reaches.step_then
  have last := reaches_pass_then answers .inline (scan inline? t) pure i
  rw [bind_pure] at last
  exact last whole fun t i _ => .step_then .refl

/-- The text on top is finished with what the recursion gives, if the limit leaves it the
levels that the recursion has. A run that is cut off needs a limit with just these
levels. -/
theorem reaches_enrichWithin (waiting : List Level) (levels : Nat)
    (within : ∀ limit, e.config.maxLocalizeDepth = some limit →
      waiting.length + levels ≤ limit.toNat) (t : Text) (id : Nat)
    (whole : IsCut (e.enrichWithin data levels t id).1 →
      ∃ limit, e.config.maxLocalizeDepth = some limit ∧
        limit.toNat = waiting.length + levels) :
    e.Reaches data (.running (.start e.config t) waiting id)
      (.finish waiting (e.enrichWithin data levels t id)) := by
  induction levels generalizing waiting t id with
  | zero =>
    rw [enrichWithin_eq] at whole ⊢
    refine reaches_enrichWith ?_ t id whole
    intro top key id cut
    obtain ⟨limit, limited, same⟩ := cut ⟨key, e.levels, rfl⟩
    have reached : e.ask top waiting key id = .ended (.error (.localizeDepth key e.levels)) id := by
      have here : limit.toNat ≤ waiting.length := Nat.le_of_eq same
      simp [ask, limitAt, levels, limited, here]
    rw [reached]
    exact .refl
  | succ levels ih =>
    rw [enrichWithin_eq] at whole ⊢
    refine reaches_enrichWith ?_ t id whole
    intro top key id cut
    have deeper : (top :: waiting).length + levels = waiting.length + (levels + 1) := by
      rw [List.length_cons]
      omega
    have entered : e.ask top waiting key id =
        .running (.start e.config (e.translations.translate key)) (top :: waiting) id := by
      have room : limitAt e.config.maxLocalizeDepth waiting.length = none := by
        apply limitAt_eq_none
        intro limit limited
        have := within limit limited
        omega
      rw [ask, room]
    rw [entered]
    rw [← deeper] at cut within
    exact ih (top :: waiting) within (e.translations.translate key) id cut

end Runs

/-! ### Runs as a whole -/

/-- The run of an enricher over a text ends with an outcome. -/
def EndsWith (e : Enricher) (data : RollData) (t : Text) (id : Nat)
    (outcome : Except EnrichmentError Text × Nat) : Prop :=
  e.Reaches data (e.initial t id) (.ended outcome.1 outcome.2)

/-- Under a limit every run ends, with what `enrich` gives. -/
theorem endsWith_enrich (config : Config) (table : Translations) (data : RollData)
    (limit : UInt64) (t : Text) (id : Nat) :
    EndsWith ⟨limited config (some limit), table⟩ data t id
      (enrich ⟨limited config (some limit), table⟩ data t id) := by
  refine reaches_enrichWithin [] limit.toNat ?_ t id ?_
  · intro other same
    obtain rfl : limit = other := Option.some.inj same
    exact Nat.le_of_eq (Nat.zero_add _)
  · exact fun _ => ⟨limit, rfl, (Nat.zero_add _).symm⟩

/-- Without a limit a run ends if the recursion is not cut off at some number of levels. -/
theorem endsWith_of_not_isCut {config : Config} {table : Translations} {data : RollData}
    {levels : Nat} {t : Text} {id : Nat}
    (whole : ¬ IsCut (enrichWithin ⟨limited config none, table⟩ data levels t id).1) :
    EndsWith ⟨limited config none, table⟩ data t id
      (enrichWithin ⟨limited config none, table⟩ data levels t id) := by
  refine reaches_enrichWithin [] levels ?_ t id ?_
  · intro limit limited
    cases limited
  · exact fun cut => absurd cut whole

/-- The limit of localized texts only cuts off.

A run under a limit that is not cut off comes out the same, with the same counter, under
every greater limit and without a limit; the latter is said of `enrich` and of the run
step by step, which in general need not end. And under every limit every run ends, with
what `enrich` gives, and at no time more texts wait than the limit says. -/
theorem limit_only_cuts_off (config : Config) (table : Translations) (data : RollData) (t : Text)
    (id : Nat) :
    (∀ limit limit' : UInt64, limit ≤ limit' →
      ¬ IsCut (enrich ⟨limited config (some limit), table⟩ data t id).1 →
      enrich ⟨limited config (some limit'), table⟩ data t id =
        enrich ⟨limited config (some limit), table⟩ data t id ∧
      enrich ⟨limited config none, table⟩ data t id =
        enrich ⟨limited config (some limit), table⟩ data t id ∧
      EndsWith ⟨limited config none, table⟩ data t id
        (enrich ⟨limited config (some limit), table⟩ data t id)) ∧
    ∀ limit : UInt64,
      EndsWith ⟨limited config (some limit), table⟩ data t id
        (enrich ⟨limited config (some limit), table⟩ data t id) ∧
      ∀ s, Reaches ⟨limited config (some limit), table⟩ data
        (initial ⟨limited config (some limit), table⟩ t id) s → s.depth ≤ limit.toNat := by
  refine ⟨?_, ?_⟩
  · intro limit limit' le whole
    have more : limit.toNat ≤ limit'.toNat := le
    have most : limit.toNat ≤ Amount.unsignedLimit := Nat.le_of_lt limit.toNat_lt
    have same := extends_enrichWithin config table data (some limit) none (Nat.le_refl _) t id whole
    have ends := endsWith_of_not_isCut (show ¬ IsCut _ by rwa [same])
    rw [same] at ends
    exact ⟨extends_enrichWithin config table data _ _ more t id whole,
      extends_enrichWithin config table data _ _ most t id whole, ends⟩
  · intro limit
    refine ⟨endsWith_enrich config table data limit t id, ?_⟩
    intro s reached
    exact depth_le_of_reaches rfl (Nat.zero_le _) reached

end RuleText.Enricher
