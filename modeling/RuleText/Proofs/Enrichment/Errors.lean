import RuleText.Proofs.Arguments.Consumption
import RuleText.Proofs.Enrichment.Localization

/-!
# Errors that leave enrichment

Errors come from the handlers of directives, from the check for arguments left over, from
the evaluation of damage and from the limit for localized texts. Whatever the text is and
however deep localized texts stand inside each other, what leaves enrichment is an
unknown directive, a cut at the limit, or an error annotated once with the directive that
raised it (`annotated_once_of_enrich`).

`FailsWith` bounds the errors of a computation. It is kept by `bind`, so for each handler
it is enough to look at the steps that can fail.
-/

namespace RuleText

open Directive

/-! ### The errors -/

namespace EnrichmentError

/-- The errors of a directive of the kind, before they are annotated. -/
inductive Raises : Kind → EnrichmentError → Prop
  | unconsumed (kind : Kind) (keyed positional : List Text) :
      Raises kind (.unconsumed keyed positional)
  | missingArgument {kind : Kind} : kind ≠ .roll → Raises kind (.missingArgument 0)
  | missingKey (key : Text) : Raises .template (.missingKey key)
  | evaluation (error : Damage.EvalError) : Raises .damage (.evaluation error)

/-- How annotations call a directive of the kind. Inline directives are called by their
names, as they are written. -/
inductive Calls : Kind → Text → Prop
  | template : Calls .template "@Template".toList
  | check : Calls .check "@Check".toList
  | damage : Calls .damage "@Damage".toList
  | act {name : Text} : name.lowerAscii = "act".toList →
      Calls .act ("[[/".toList ++ name ++ "]]".toList)
  | roll {name : Text} :
      name.lowerAscii ∈ ["r".toList, "pr".toList, "gmr".toList, "br".toList, "sr".toList] →
      Calls .roll ("[[/".toList ++ name ++ "]]".toList)

/-- The errors that leave enrichment. -/
inductive Leaves : EnrichmentError → Prop
  | unknownDirective (directive : Text) : Leaves (.unknownDirective directive)
  | localizeDepth (key : Text) (limit : Nat) : Leaves (.localizeDepth key limit)
  | annotated {kind : Kind} {context : Text} {source : EnrichmentError} (args : Text) :
      Calls kind context → Raises kind source → Leaves (.annotated context args source)

theorem Raises.rootCause {kind : Kind} {e : EnrichmentError} (h : Raises kind e) :
    e.rootCause = e := by
  cases h <;> rfl

/-- No error that leaves enrichment comes down to a path. -/
theorem Leaves.rootCause_ne {e : EnrichmentError} (h : Leaves e) (error : PathError) :
    e.rootCause ≠ .unknownPath error := by
  cases h with
  | unknownDirective _ => nofun
  | localizeDepth _ _ => nofun
  | annotated args _ raises =>
    rw [rootCause_annotated, raises.rootCause]
    cases raises <;> nofun

end EnrichmentError

open EnrichmentError

/-! ### Computations that fail with some errors only -/

section FailsWith

variable {α β : Type} {P Q : EnrichmentError → Prop}

/-- All errors of the computation, from any counter, satisfy a condition. -/
def FailsWith (P : EnrichmentError → Prop) (x : Resolve α) : Prop :=
  ∀ id e i, x id = (.error e, i) → P e

namespace FailsWith

theorem pure (a : α) : FailsWith P (Pure.pure a : Resolve α) := by
  rintro id e i ⟨⟩

theorem throw {e : EnrichmentError} (h : P e) : FailsWith P (MonadExcept.throw e : Resolve α) := by
  rintro id e i ⟨⟩
  exact h

theorem bind {x : Resolve α} {f : α → Resolve β} (first : FailsWith P x)
    (next : ∀ a, FailsWith P (f a)) : FailsWith P (x >>= f) := by
  intro id e i failed
  rcases run : x id with ⟨_ | a, i'⟩
  · rw [Enricher.bind_run_error run] at failed
    cases failed
    exact first id e i run
  · rw [Enricher.bind_run_ok run] at failed
    exact next a i' e i failed

end FailsWith

theorem failsWith_replaceAll {resolve : Occurrence → Resolve Text}
    (h : ∀ o, FailsWith P (resolve o)) (pieces : List Piece) :
    FailsWith P (replaceAll resolve pieces) := by
  induction pieces with
  | nil => exact .pure []
  | cons piece pieces ih =>
    cases piece with
    | plain c => exact ih.bind fun rest => .pure _
    | directive o => exact (h o).bind fun resolved => ih.bind fun rest => .pure _

end FailsWith

/-! ### Handlers -/

theorem Arguments.eq_of_takeIndex {args : Arguments} {n : Nat} {e : EnrichmentError}
    (h : (args.takeIndex n).1 = .error e) : e = .missingArgument n := by
  rw [takeIndex_eq] at h
  cases found : (args.takeAt n).1 with
  | some a =>
    rw [found] at h
    cases h
  | none =>
    rw [found] at h
    exact (Except.error.inj h).symm

namespace Directive

section Handlers

variable {α β : Type} {P : EnrichmentError → Prop}

/-- All errors of the handler, with any arguments, satisfy a condition. -/
def Handler.FailsWith (P : EnrichmentError → Prop) (x : Handler α) : Prop :=
  ∀ args, RuleText.FailsWith P (x args)

theorem Handler.modifyGet_bind (f : Arguments → α × Arguments) (next : α → Handler β)
    (args : Arguments) :
    (modifyGet f >>= next : Handler β) args = next (f args).1 (f args).2 := rfl

namespace Handler.FailsWith

theorem pure (a : α) : Handler.FailsWith P (Pure.pure a : Handler α) :=
  fun args => RuleText.FailsWith.pure (a, args)

theorem fail {e : EnrichmentError} (h : P e) :
    Handler.FailsWith P (Handler.fail e : Handler α) :=
  fun _ => .throw h

theorem modifyGet (f : Arguments → α × Arguments) :
    Handler.FailsWith P (modifyGet f : Handler α) :=
  fun args => RuleText.FailsWith.pure (f args)

theorem lift (x : StateM Nat α) : Handler.FailsWith P (liftM x : Handler α) := by
  rintro args id e i ⟨⟩

theorem bind {x : Handler α} {f : α → Handler β} (first : Handler.FailsWith P x)
    (next : ∀ a, Handler.FailsWith P (f a)) : Handler.FailsWith P (x >>= f) :=
  fun args => RuleText.FailsWith.bind (first args) fun found => next found.1 found.2

theorem ignore (keys : List String) : Handler.FailsWith P (Handler.ignore keys) :=
  modifyGet _

theorem index {n : Nat} (h : P (.missingArgument n)) : Handler.FailsWith P (Handler.index n) := by
  intro args id e i failed
  unfold Handler.index at failed
  cases found : (args.takeIndex n).1 with
  | ok value =>
    rw [Handler.modifyGet_bind, found] at failed
    cases failed
  | error e' =>
    rw [Handler.modifyGet_bind, found] at failed
    cases failed
    exact Arguments.eq_of_takeIndex found ▸ h

theorem nonempty (key : String) : Handler.FailsWith P (Handler.nonempty key) :=
  (modifyGet _).bind fun _ => pure _

theorem typeOrFirst (h : P (.missingArgument 0)) : Handler.FailsWith P Handler.typeOrFirst := by
  refine (nonempty _).bind fun type => ?_
  cases type with
  | some value => exact pure value
  | none => exact index h

end Handler.FailsWith

end Handlers

section Outcome

variable {kind : Kind} {args : Arguments} {α : Type}

theorem raises_of_checkUsed {e : EnrichmentError} (h : args.checkUsed = .error e) :
    Raises kind e := by
  unfold Arguments.checkUsed at h
  split at h
  · cases h
  · cases h
    exact .unconsumed kind _ _

/-- The outcome of a directive is annotated once, also when arguments are left over. -/
theorem leaves_of_outcome {result : Except EnrichmentError (α × Arguments)} {e : EnrichmentError}
    (called : Calls kind args.context) (raises : ∀ e, result = .error e → Raises kind e)
    (h : args.outcome result = .error e) : Leaves e := by
  cases result with
  | error e' =>
    cases h
    exact .annotated _ called (raises e' rfl)
  | ok found =>
    simp only [Arguments.outcome, bind, Except.bind] at h
    rcases checked : found.2.checkUsed with e' | _
    · rw [checked] at h
      cases h
      exact .annotated _ called (raises_of_checkUsed checked)
    · rw [checked] at h
      cases h

theorem failsWith_handle {handler : Handler Text} (called : Calls kind args.context)
    (h : Handler.FailsWith (Raises kind) handler) : FailsWith Leaves (handle args handler) := by
  intro id e i failed
  refine leaves_of_outcome called (fun e' raised => ?_) (congrArg Prod.fst failed)
  exact h args id e' _ (Prod.ext raised rfl)

end Outcome

section Kinds

open Handler.FailsWith

variable (data : RollData)

theorem failsWith_template : Handler.FailsWith (Raises .template) (template data) := by
  refine (ignore _).bind fun _ => (typeOrFirst (.missingArgument nofun)).bind fun shape =>
    (modifyGet _).bind fun distance => ?_
  cases distance with
  | none => exact fail (.missingKey _)
  | some distance =>
    dsimp only
    split
    · refine (modifyGet _).bind fun width => ?_
      cases width <;> exact pure _
    · refine (pure none).bind fun width => ?_
      cases width <;> exact pure _

theorem failsWith_check : Handler.FailsWith (Raises .check) (check data) := by
  refine (ignore _).bind fun _ => (typeOrFirst (.missingArgument nofun)).bind fun type =>
    (modifyGet _).bind fun basic => (modifyGet _).bind fun dc => ?_
  rcases basic with _ | _ <;> rcases dc with _ | dc
  · exact pure _
  · dsimp only
    split
    · exact pure _
    · exact (lift _).bind fun _ => pure _
  · exact pure _
  · exact pure _

theorem failsWith_damage : Handler.FailsWith (Raises .damage) (damage data) := by
  refine (ignore _).bind fun _ => (index (.missingArgument nofun)).bind fun formula =>
    (modifyGet _).bind fun shortLabel => ?_
  rcases Damage.Payload.ofText data formula with error | i | ⟨text, error⟩
  · exact fail (.evaluation error)
  · exact (lift _).bind fun _ => lift _
  · exact lift _

theorem failsWith_roll (label : Option Text) : Handler.FailsWith (Raises .roll) (roll label) := by
  refine (modifyGet _).bind fun amount => ?_
  dsimp only
  split <;> exact pure _

theorem failsWith_act : Handler.FailsWith (Raises .act) (act data) := by
  refine (ignore _).bind fun _ => (index (.missingArgument nofun)).bind fun name =>
    (modifyGet _).bind fun dc => (nonempty _).bind fun found => ?_
  rcases found with _ | found
  on_goal 1 => refine (modifyGet _).bind fun statistic => ?_
  on_goal 2 => refine (pure _).bind fun statistic => ?_
  -- Both ways to find the statistic go on in the same way.
  all_goals
    rcases dc with _ | dc <;> rcases statistic with _ | statistic
    · exact pure _
    · exact pure _
    · exact (lift _).bind fun _ => pure _
    · exact (lift _).bind fun _ => pure _

end Kinds

end Directive

/-! ### Directives and whole texts -/

namespace Enricher

theorem mem_inlineNames {name : Text} {kind : Kind} (h : Kind.ofInlineName name = kind)
    (known : kind ≠ .unsupported) : (name.lowerAscii, kind) ∈ Kind.inlineNames := by
  unfold Kind.ofInlineName at h
  cases found : Kind.inlineNames.lookup name.lowerAscii with
  | none =>
    rw [found] at h
    exact absurd h.symm known
  | some kind' =>
    rw [found] at h
    obtain ⟨before, after, split, -⟩ := List.lookup_eq_some_iff.mp found
    rw [split, ← show kind' = kind from h]
    exact List.mem_append_right _ List.mem_cons_self

variable (data : RollData)

theorem failsWith_resolveBlock {localize : Text → Resolve Text}
    (localized : ∀ key, FailsWith Leaves (localize key)) (o : Occurrence) :
    FailsWith Leaves (resolveBlock data localize o) := by
  unfold resolveBlock
  cases o.display with
  | some d => exact .pure d
  | none =>
    dsimp only
    cases Kind.ofBlockName o.name with
    | localize => exact localized o.payload
    | uuid => exact .pure _
    | template => exact failsWith_handle .template (failsWith_template data)
    | check => exact failsWith_handle .check (failsWith_check data)
    | damage => exact failsWith_handle .damage (failsWith_damage data)
    | roll | act | unsupported => exact .throw (.unknownDirective o.text)

theorem failsWith_resolveInline (o : Occurrence) : FailsWith Leaves (resolveInline data o) := by
  unfold resolveInline
  cases o.display with
  | some d => exact .pure d
  | none =>
    dsimp only
    cases kind : Kind.ofInlineName o.name with
    | roll =>
      have named := mem_inlineNames kind nofun
      refine failsWith_handle (.roll ?_) (failsWith_roll _)
      simpa [Kind.inlineNames] using named
    | act =>
      have named := mem_inlineNames kind nofun
      refine failsWith_handle (.act ?_) (failsWith_act data)
      simpa [Kind.inlineNames] using named
    | localize | uuid | template | check | damage | unsupported =>
      exact .throw (.unknownDirective o.text)

theorem failsWith_enrichWith (config : Config) {localize : Text → Resolve Text}
    (localized : ∀ key, FailsWith Leaves (localize key)) (text : Text) :
    FailsWith Leaves (enrichWith config data localize text) :=
  (failsWith_replaceAll (failsWith_resolveBlock data localized) _).bind fun _ =>
    (failsWith_replaceAll (failsWith_resolveBlock data localized) _).bind fun _ =>
      failsWith_replaceAll (failsWith_resolveInline data) _

/-- The errors of a localized text are those of a text on its own, and the reference adds
no annotation to them. -/
theorem failsWith_enrichWithin (e : Enricher) (levels : Nat) (text : Text) :
    FailsWith Leaves (e.enrichWithin data levels text) := by
  induction levels generalizing text with
  | zero => exact failsWith_enrichWith data _ (fun key => .throw (.localizeDepth key _)) text
  | succ levels ih => exact failsWith_enrichWith data _ (fun key => ih _) text

/-- What goes wrong in enrichment is annotated once.

An error of any run is bare only if it is an unknown directive or a cut at the limit. All
others are annotated once with what the directive is called, and its kind bounds what the
source is. No error comes down to a path. -/
theorem annotated_once_of_enrich (e : Enricher) (text : Text) {id i : Nat}
    {err : EnrichmentError} (failed : e.enrich data text id = (.error err, i)) :
    Leaves err ∧ ∀ error, err.rootCause ≠ .unknownPath error := by
  have leaves : Leaves err := failsWith_enrichWithin data e e.levels text id err i failed
  exact ⟨leaves, leaves.rootCause_ne⟩

/-! ### A localized template without a distance -/

theorem enrichWith_error {localize : Text → Resolve Text} {o : Occurrence} (formed : o.WellFormed)
    (block : o.form = .block) (other : ¬ o.IsDamage) {err : EnrichmentError} {id i : Nat}
    (failed : resolveBlock data localize o id = (.error err, i)) :
    enrichWith .default data localize o.text id = (.error err, i) := by
  have pass : passOver block? (resolveBlock data localize) o.text = resolveBlock data localize o :=
    passOver_directive (recognizes_block? formed block other)
  rw [enrichWith_of_not_newline _ _ (not_newline_mem_text formed),
    passOver_of_silent (silent_damageBlock? formed block other), pure_bind, pass]
  exact bind_run_error failed

/-- A template with a shape alone. -/
def coneAlone : Occurrence := ⟨.block, "Template".toList, "cone".toList, none⟩

/-- Why the template cannot be resolved. -/
def coneError : EnrichmentError :=
  .annotated "@Template".toList "cone".toList (.missingKey "distance".toList)

theorem resolveBlock_coneAlone (localize : Text → Resolve Text) (id : Nat) :
    resolveBlock data localize coneAlone id = (.error coneError, id) := by
  rfl

/-- A localized text fails with the error of the template in it. -/
theorem enrich_localizedCone :
    enrich ⟨.default, Translations.empty.insert ['k'] coneAlone.text⟩ .empty
      (reference ['k']).text 7 = (.error coneError, 7) ∧
    Leaves coneError ∧ ∀ error, coneError.rootCause ≠ .unknownPath error := by
  let e : Enricher := ⟨.default, Translations.empty.insert ['k'] coneAlone.text⟩
  have formed : coneAlone.WellFormed :=
    wellFormed_of_payload (by decide) (by decide) (by decide) (by decide)
  have cone : enrichWith e.config .empty (e.localize .empty 31) coneAlone.text 7 =
      (.error coneError, 7) :=
    enrichWith_error .empty formed rfl (by decide) (resolveBlock_coneAlone .empty _ 7)
  have key : e.translations.translate ['k'] = coneAlone.text :=
    Translations.translate_insert_self _ _ _
  have simple : SimplePayload ['k'] := by decide
  have failed : e.enrich .empty (reference ['k']).text 7 = (.error coneError, 7) := by
    rw [enrich, enrichWithin_eq,
      enrichWith_reference .empty _ simple (unmarked_default simple.not_newline_mem_text)]
    refine bind_run_error ?_
    rw [← cone, ← key, ← enrichWithin_eq]
    rfl
  exact ⟨failed, annotated_once_of_enrich .empty e _ failed⟩

end Enricher

end RuleText
