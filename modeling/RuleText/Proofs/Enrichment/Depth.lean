import RuleText.Proofs.Enrichment.Locality

/-!
# More levels change nothing

How many localized texts may stand inside each other only decides whether enrichment is
cut off. A run that is not cut off comes out the same, with the same counter, where more
levels are allowed (`extends_enrichWithin`): no text is taken from a level that is not
needed, and an error of another kind is met before the cut.
-/

namespace RuleText.Enricher

open Directive

/-- The error of a text that stands inside too many others. -/
def IsCut (r : Except EnrichmentError Text) : Prop :=
  ∃ key limit, r = .error (.localizeDepth key limit)

theorem not_isCut_ok (t : Text) : ¬ IsCut (.ok t) := by
  rintro ⟨_, _, h⟩
  cases h

/-- What the first computation comes to without being cut off, the second comes to. -/
def Extends (x y : Resolve Text) : Prop :=
  ∀ id, ¬ IsCut (x id).1 → y id = x id

namespace Extends

theorem refl (x : Resolve Text) : Extends x x :=
  fun _ _ => rfl

/-- Of a computation that is cut off nothing is said. -/
theorem of_cut (key : Text) (limit : Nat) (y : Resolve Text) :
    Extends (throw (.localizeDepth key limit)) y :=
  fun _ whole => absurd ⟨key, limit, rfl⟩ whole

theorem bind {x y : Resolve Text} {f g : Text → Resolve Text} (first : Extends x y)
    (next : ∀ t, Extends (f t) (g t)) : Extends (x >>= f) (y >>= g) := by
  intro id whole
  rcases run : x id with ⟨r, i⟩
  cases r with
  | error e =>
    rw [bind_run_error run] at whole ⊢
    have same := first id (by rwa [run])
    exact bind_run_error (same.trans run)
  | ok t =>
    rw [bind_run_ok run] at whole ⊢
    have same := first id (by rw [run]; exact not_isCut_ok t)
    rw [bind_run_ok (same.trans run)]
    exact next t i whole

end Extends

section Passes

variable {resolve resolve' : Occurrence → Resolve Text}

theorem extends_replaceAll (h : ∀ o, Extends (resolve o) (resolve' o)) (pieces : List Piece) :
    Extends (Directive.replaceAll resolve pieces) (Directive.replaceAll resolve' pieces) := by
  induction pieces with
  | nil => exact .refl _
  | cons piece pieces ih =>
    cases piece with
    | plain c => exact ih.bind fun _ => .refl _
    | directive o => exact (h o).bind fun _ => ih.bind fun _ => .refl _

variable {localize localize' : Text → Resolve Text} (data : RollData)

theorem resolveBlock_of_localize {o : Occurrence} (unshown : o.display = none)
    (kind : Kind.ofBlockName o.name = .localize) :
    resolveBlock data localize o = localize o.payload := by
  simp only [resolveBlock, unshown, kind]

/-- No other directive is resolved by a localized text. -/
theorem resolveBlock_of_not_localize (localize localize' : Text → Resolve Text) {o : Occurrence}
    (other : ¬ (o.display = none ∧ Kind.ofBlockName o.name = .localize)) :
    resolveBlock data localize o = resolveBlock data localize' o := by
  simp only [resolveBlock]
  cases unshown : o.display with
  | some d => rfl
  | none =>
    dsimp only
    cases kind : Kind.ofBlockName o.name with
    | localize => exact absurd ⟨unshown, kind⟩ other
    | uuid | template | check | damage | roll | act | unsupported => rfl

theorem extends_resolveBlock (h : ∀ key, Extends (localize key) (localize' key))
    (o : Occurrence) : Extends (resolveBlock data localize o) (resolveBlock data localize' o) := by
  by_cases localized : o.display = none ∧ Kind.ofBlockName o.name = .localize
  · obtain ⟨unshown, kind⟩ := localized
    rw [resolveBlock_of_localize data unshown kind, resolveBlock_of_localize data unshown kind]
    exact h o.payload
  · rw [resolveBlock_of_not_localize data localize localize' localized]
    exact .refl _

theorem extends_enrichWith (config : Config) (h : ∀ key, Extends (localize key) (localize' key))
    (t : Text) :
    Extends (enrichWith config data localize t) (enrichWith config data localize' t) := by
  unfold enrichWith
  have block := extends_resolveBlock data h
  exact (extends_replaceAll block _).bind fun _ =>
    (extends_replaceAll block _).bind fun _ => .refl _

end Passes

/-- A configuration with a limit of its own. -/
def limited (config : Config) (limit : Option UInt64) : Config :=
  { config with maxLocalizeDepth := limit }

/-- A run that is not cut off comes out the same when more levels are allowed, whatever
the limits are that an error would name. -/
theorem extends_enrichWithin (config : Config) (table : Translations) (data : RollData)
    (limit limit' : Option UInt64) {levels levels' : Nat} (more : levels ≤ levels') (t : Text) :
    Extends (enrichWithin ⟨limited config limit, table⟩ data levels t)
      (enrichWithin ⟨limited config limit', table⟩ data levels' t) := by
  induction levels generalizing levels' t with
  | zero =>
    rw [enrichWithin_eq, enrichWithin_eq]
    exact extends_enrichWith data config (fun key => .of_cut key _ _) t
  | succ levels ih =>
    obtain ⟨levels', rfl⟩ := Nat.exists_eq_succ_of_ne_zero (show levels' ≠ 0 by omega)
    rw [enrichWithin_eq, enrichWithin_eq]
    exact extends_enrichWith data config (fun key => ih (by omega) (table.translate key)) t

end RuleText.Enricher
