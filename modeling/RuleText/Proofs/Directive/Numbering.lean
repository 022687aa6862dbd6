import Mathlib.Data.List.Forall2
import RuleText.Proofs.Directive.Recognition
import RuleText.Directive.Rendering

/-!
# Span numbers do not matter

The number of a span depends on how many spans have been written before. A
directive that is resolved from two different counters gives two texts that agree
up to the numbers in span ids (`AgreeUpToIds`), and it uses up equally many
numbers; whether it fails does not depend on the counter.

This is shown for the handlers of all kinds of directives. `Alike` compares two
computations from any two counters, and `Handler.Alike` does so for computations
that also take arguments. Both are kept by `bind`, so a handler is compared with
itself step by step.
-/

namespace RuleText.Directive

/-! ### Texts up to span numbers -/

/-- The opening tag of a span. -/
def spanOpening (id : Nat) (cls : Text) : Text :=
  "<span class=\"statistic-".toList ++ cls ++ "\" id=\"statistic-".toList ++ cls ++ '-' ::
    Text.ofNat id ++ "\">".toList

theorem spanText_eq (id : Nat) (text cls : Text) :
    spanText id text cls = spanOpening id cls ++ (text ++ "</span>".toList) := by
  unfold spanText spanOpening
  simp only [List.append_assoc, List.cons_append]

theorem plain_ofNat (n : Nat) : (Text.ofNat n).Plain := by
  intro c hc
  have digit : c.isDigit = true := Nat.isDigit_of_mem_toDigits (by decide) (by decide) hc
  simp only [Text.markupChars, List.mem_cons, List.not_mem_nil, or_false]
  rintro (rfl | rfl | rfl | rfl | rfl | rfl) <;> exact absurd digit (by decide)

theorem plain_spanOpening {id : Nat} {cls : Text} : (spanOpening id cls).Plain ↔ cls.Plain := by
  have lead : Text.Plain "<span class=\"statistic-".toList := by decide
  have middle : Text.Plain "\" id=\"statistic-".toList := by decide
  have last : Text.Plain "\">".toList := by decide
  have dash : '-' ∉ Text.markupChars := by decide
  unfold spanOpening
  simp only [Text.plain_append, Text.plain_cons, lead, middle, last, dash, plain_ofNat,
    not_false_iff, true_and, and_true, and_self]

/-- The texts are the same, except that numbers in the ids of spans may differ. -/
inductive AgreeUpToIds : Text → Text → Prop
  | nil : AgreeUpToIds [] []
  | char (c : Char) {s t : Text} : AgreeUpToIds s t → AgreeUpToIds (c :: s) (c :: t)
  | spanId (m n : Nat) (cls : Text) {s t : Text} : AgreeUpToIds s t →
      AgreeUpToIds (spanOpening m cls ++ s) (spanOpening n cls ++ t)

namespace AgreeUpToIds

theorem refl (t : Text) : AgreeUpToIds t t := by
  induction t with
  | nil => exact .nil
  | cons c t ih => exact .char c ih

theorem symm {s t : Text} (h : AgreeUpToIds s t) : AgreeUpToIds t s := by
  induction h with
  | nil => exact .nil
  | char c _ ih => exact .char c ih
  | spanId m n cls _ ih => exact .spanId n m cls ih

theorem append {s t s' t' : Text} (h : AgreeUpToIds s t) (h' : AgreeUpToIds s' t') :
    AgreeUpToIds (s ++ s') (t ++ t') := by
  induction h with
  | nil => exact h'
  | char c _ ih => exact .char c ih
  | spanId m n cls _ ih =>
    rw [List.append_assoc, List.append_assoc]
    exact .spanId m n cls ih

theorem append_left (s : Text) {t t' : Text} (h : AgreeUpToIds t t') :
    AgreeUpToIds (s ++ t) (s ++ t') :=
  (refl s).append h

theorem append_right (s : Text) {t t' : Text} (h : AgreeUpToIds t t') :
    AgreeUpToIds (t ++ s) (t' ++ s) :=
  h.append (refl s)

theorem spanText (m n : Nat) (cls : Text) {s t : Text} (h : AgreeUpToIds s t) :
    AgreeUpToIds (Directive.spanText m s cls) (Directive.spanText n t cls) := by
  rw [spanText_eq, spanText_eq]
  exact .spanId m n cls (h.append_right _)

theorem joined (sep : Text) {ss ts : List Text} (h : List.Forall₂ AgreeUpToIds ss ts) :
    AgreeUpToIds (Text.joined sep ss) (Text.joined sep ts) := by
  induction h with
  | nil => exact refl _
  | @cons s t ss ts first more ih =>
    cases more with
    | nil => simpa [Text.joined, List.intercalate] using first
    | cons second more =>
      simp only [Text.joined, List.intercalate_cons_cons] at ih ⊢
      exact (first.append_right sep).append ih

/-- Digits are plain, so plainness does not depend on span numbers. -/
theorem plain {s t : Text} (h : AgreeUpToIds s t) (hs : s.Plain) : t.Plain := by
  induction h with
  | nil => exact hs
  | char c _ ih =>
    rw [Text.plain_cons] at hs ⊢
    exact ⟨hs.1, ih hs.2⟩
  | spanId m n cls _ ih =>
    rw [Text.plain_append, plain_spanOpening] at hs ⊢
    exact ⟨hs.1, ih hs.2⟩

end AgreeUpToIds

/-! ### Computations from different counters -/

section Alike

variable {α β γ δ : Type}

/-- From any two counters both computations use up equally many numbers, and their
results are related. -/
def Alike (R : α → β → Prop) (x : StateM Nat α) (y : StateM Nat β) : Prop :=
  ∀ m n, ∃ k, (x m).2 = m + k ∧ (y n).2 = n + k ∧ R (x m).1 (y n).1

theorem Alike.pure {R : α → β → Prop} {a : α} {b : β} (h : R a b) :
    Alike R (Pure.pure a) (Pure.pure b) :=
  fun _ _ => ⟨0, rfl, rfl, h⟩

theorem Alike.bind {R : α → β → Prop} {S : γ → δ → Prop} {x : StateM Nat α} {y : StateM Nat β}
    {f : α → StateM Nat γ} {g : β → StateM Nat δ} (first : Alike R x y)
    (next : ∀ a b, R a b → Alike S (f a) (g b)) : Alike S (x >>= f) (y >>= g) := by
  intro m n
  obtain ⟨k, hm, hn, related⟩ := first m n
  obtain ⟨i, hm', hn', related'⟩ := next _ _ related (x m).2 (y n).2
  refine ⟨k + i, ?_, ?_, related'⟩
  · rw [← Nat.add_assoc, ← hm]
    exact hm'
  · rw [← Nat.add_assoc, ← hn]
    exact hn'

/-- Two outcomes that are the same error, or results in a relation. -/
inductive SameOutcome (R : α → β → Prop) :
    Except EnrichmentError α → Except EnrichmentError β → Prop
  | ok {a : α} {b : β} : R a b → SameOutcome R (.ok a) (.ok b)
  | error (e : EnrichmentError) : SameOutcome R (.error e) (.error e)

/-- Handlers that are alike for any arguments and leave the same arguments. -/
def Handler.Alike (R : α → β → Prop) (x : Handler α) (y : Handler β) : Prop :=
  ∀ args, Directive.Alike (SameOutcome fun p q => R p.1 q.1 ∧ p.2 = q.2) (x args) (y args)

end Alike

theorem alike_span {s t : Text} (h : AgreeUpToIds s t) (cls : Text) :
    Alike AgreeUpToIds (span s cls) (span t cls) :=
  fun m n => ⟨1, rfl, rfl, h.spanText m n cls⟩

namespace Handler

variable {α β γ δ : Type}

theorem Alike.pure {R : α → β → Prop} {a : α} {b : β} (h : R a b) :
    Alike R (Pure.pure a) (Pure.pure b) :=
  fun _ _ _ => ⟨0, rfl, rfl, .ok ⟨h, rfl⟩⟩

theorem Alike.fail {R : α → β → Prop} (e : EnrichmentError) : Alike R (fail e) (fail e) :=
  fun _ _ _ => ⟨0, rfl, rfl, .error e⟩

theorem Alike.modifyGet (f : Arguments → α × Arguments) :
    Alike Eq (modifyGet f : Handler α) (modifyGet f) :=
  fun _ _ _ => ⟨0, rfl, rfl, .ok ⟨rfl, rfl⟩⟩

theorem Alike.lift {R : α → β → Prop} {x : StateM Nat α} {y : StateM Nat β}
    (h : Directive.Alike R x y) : Alike R (liftM x : Handler α) (liftM y : Handler β) := by
  intro args m n
  obtain ⟨k, hm, hn, related⟩ := h m n
  exact ⟨k, hm, hn, .ok ⟨related, rfl⟩⟩

/-- How a handler goes on after an outcome of the part before. -/
def continueWith (f : α → Handler β) :
    Except EnrichmentError (α × Arguments) → StateM Nat (Except EnrichmentError (β × Arguments))
  | .ok (a, args) => f a args
  | .error e => Pure.pure (.error e)

theorem bind_apply (x : Handler α) (f : α → Handler β) (args : Arguments) :
    (x >>= f) args = (show StateM Nat _ from x args) >>= continueWith f := by
  funext n
  change _ = continueWith f (x args n).1 (x args n).2
  rcases h : x args n with ⟨_ | ⟨a, rest⟩, m⟩
  · simp [bind, StateT.bind, ExceptT.bind, ExceptT.mk, ExceptT.bindCont, h, continueWith]
  · simp [bind, StateT.bind, ExceptT.bind, ExceptT.mk, ExceptT.bindCont, h, continueWith]

theorem Alike.bind {R : α → β → Prop} {S : γ → δ → Prop} {x : Handler α} {y : Handler β}
    {f : α → Handler γ} {g : β → Handler δ} (first : Alike R x y)
    (next : ∀ a b, R a b → Alike S (f a) (g b)) : Alike S (x >>= f) (y >>= g) := by
  intro args
  rw [bind_apply, bind_apply]
  refine Directive.Alike.bind (first args) fun p q related => ?_
  cases related with
  | ok h =>
    rename_i p q
    obtain ⟨a, rest⟩ := p
    obtain ⟨b, _⟩ := q
    obtain ⟨h, rfl⟩ := h
    exact next a b h rest
  | error e => exact Directive.Alike.pure (.error e)

/-- What a handler does next may be compared for one result at a time where that
result does not depend on the counter. -/
theorem Alike.bind_same {S : γ → δ → Prop} {x : Handler α} {f : α → Handler γ} {g : α → Handler δ}
    (first : Alike Eq x x) (next : ∀ a, Alike S (f a) (g a)) : Alike S (x >>= f) (x >>= g) :=
  first.bind fun a _ h => h ▸ next a

theorem alike_ignore (keys : List String) : Alike Eq (ignore keys) (ignore keys) :=
  Alike.modifyGet _

theorem alike_index (i : Nat) : Alike Eq (index i) (index i) := by
  refine (Alike.modifyGet _).bind_same fun found => ?_
  cases found with
  | ok value => exact .pure rfl
  | error e => exact .fail e

theorem alike_nonempty (key : String) : Alike Eq (nonempty key) (nonempty key) :=
  (Alike.modifyGet _).bind_same fun _ => .pure rfl

theorem alike_typeOrFirst : Alike Eq typeOrFirst typeOrFirst := by
  refine (alike_nonempty _).bind_same fun type => ?_
  cases type with
  | some value => exact .pure rfl
  | none => exact alike_index 0

end Handler

/-! ### The handlers -/

open Handler

variable (data : RollData)

theorem alike_template : Handler.Alike AgreeUpToIds (template data) (template data) := by
  unfold template
  refine (alike_ignore _).bind_same fun _ => alike_typeOrFirst.bind_same fun shape =>
    (Alike.modifyGet _).bind_same fun distance => ?_
  cases distance with
  | none => exact .fail _
  | some distance =>
    by_cases line : shape = "line".toList
    · simp only [if_pos line]
      refine (Alike.modifyGet _).bind_same fun width => ?_
      cases width <;> exact .pure (.refl _)
    · simp only [if_neg line]
      refine (Handler.Alike.pure rfl).bind_same fun width => ?_
      cases width <;> exact .pure (.refl _)

theorem alike_check : Handler.Alike AgreeUpToIds (check data) (check data) := by
  unfold check
  refine (alike_ignore _).bind_same fun _ => alike_typeOrFirst.bind_same fun type =>
    (Alike.modifyGet _).bind_same fun basic => (Alike.modifyGet _).bind_same fun dc => ?_
  rcases basic with _ | _ <;> rcases dc with _ | dc
  · exact .pure (.refl _)
  · by_cases flat : type = "flat".toList
    · simp only [if_pos flat]
      exact .pure (.refl _)
    · simp only [if_neg flat]
      refine (Alike.lift (alike_span (.refl dc) _)).bind fun s t h => .pure ?_
      exact (h.append_left _).append_right _
  · exact .pure (.refl _)
  · exact .pure (.refl _)

theorem alike_damageGroups (shortLabel : Bool) (groups : List Damage.Group) :
    Alike (List.Forall₂ AgreeUpToIds) (damageGroups shortLabel groups)
      (damageGroups shortLabel groups) := by
  induction groups with
  | nil => exact .pure .nil
  | cons g groups ih =>
    unfold damageGroups
    refine (alike_span (.refl _) _).bind fun s t first => ih.bind fun ss ts more => ?_
    exact .pure (.cons (first.append_right _) more)

theorem alike_damageText (i : Damage.Instance) :
    Alike AgreeUpToIds (damageText i) (damageText i) :=
  (alike_damageGroups _ _).bind fun _ _ h => .pure (.joined _ h)

theorem alike_damage : Handler.Alike AgreeUpToIds (damage data) (damage data) := by
  unfold damage
  refine (alike_ignore _).bind_same fun _ => (alike_index 0).bind_same fun formula =>
    (Alike.modifyGet _).bind_same fun shortLabel => ?_
  rcases Damage.Payload.ofText data formula with e | i | ⟨text, error⟩
  · exact .fail _
  · exact (Alike.lift (alike_damageText _)).bind fun _ _ h => .lift (alike_span h _)
  · exact .lift (alike_span (.refl text) _)

theorem alike_roll (label : Option Text) :
    Handler.Alike AgreeUpToIds (roll label) (roll label) := by
  unfold roll
  refine (Alike.modifyGet _).bind_same fun amount => ?_
  dsimp only
  split <;> exact .pure (.refl _)

theorem alike_act : Handler.Alike AgreeUpToIds (act data) (act data) := by
  unfold act
  refine (alike_ignore _).bind_same fun _ => (alike_index 0).bind_same fun name =>
    (Alike.modifyGet _).bind_same fun dc => (alike_nonempty _).bind_same fun found => ?_
  rcases found with _ | found
  on_goal 1 => refine (Alike.modifyGet _).bind_same fun statistic => ?_
  on_goal 2 => refine (Handler.Alike.pure rfl).bind_same fun statistic => ?_
  -- Both ways to find the statistic go on in the same way.
  all_goals
    rcases dc with _ | dc <;> rcases statistic with _ | statistic
    · exact .pure (.refl _)
    · exact .pure (.refl _)
    · refine (Alike.lift (alike_span (.refl dc) _)).bind fun s t h => .pure ?_
      exact (h.append_left _).append_right _
    · refine (Alike.lift (alike_span (.refl dc) _)).bind fun s t h => .pure ?_
      exact ((h.append_left _).append_right _).append_right _

/-- Which arguments are left over does not depend on the counter, so neither does
whether leaving them is an error. -/
theorem sameOutcome_outcome (args : Arguments) {x y : Except EnrichmentError (Text × Arguments)}
    (h : SameOutcome (fun p q => AgreeUpToIds p.1 q.1 ∧ p.2 = q.2) x y) :
    SameOutcome AgreeUpToIds (args.outcome x) (args.outcome y) := by
  cases h with
  | error e => exact .error _
  | ok h =>
    rename_i p q
    obtain ⟨s, rest⟩ := p
    obtain ⟨t, _⟩ := q
    obtain ⟨h, rfl⟩ := h
    simp only [Arguments.outcome, bind, Except.bind, pure, Except.pure]
    cases rest.checkUsed with
    | ok _ => exact .ok h
    | error e => exact .error _

theorem alike_handle (args : Arguments) {handler : Handler Text}
    (h : Handler.Alike AgreeUpToIds handler handler) :
    Alike (SameOutcome AgreeUpToIds) (handle args handler) (handle args handler) := by
  intro m n
  obtain ⟨k, hm, hn, related⟩ := h args m n
  exact ⟨k, hm, hn, sameOutcome_outcome args related⟩

end RuleText.Directive
