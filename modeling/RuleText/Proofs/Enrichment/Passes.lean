import Mathlib.Algebra.Order.Ring.Int
import RuleText.Proofs.Directive.Numbering
import RuleText.Enrichment.Basic

/-!
# A pass over segments

A text is put together from segments: plain texts and directives. A pass reads the
text from the left and resolves the directives that its recognizer selects; all
other segments are silent, so they stay as they are. What is left is again a text
of segments, over which the next pass can go.

What a resolution comes to is described by a prediction, which holds from every
counter. The invariant of a pass is that the numbers used up so far and the numbers
that the directives left over will use up have a constant sum (`ends_passOver`).
-/

namespace RuleText.Enricher

open Directive

/-! ### Segments -/

/-- A stretch of a text: characters without delimiters, or one directive. -/
inductive Segment where
  | plain (text : Text)
  | directive (o : Occurrence)

namespace Segment

/-- The segment as it is written. -/
def text : Segment → Text
  | plain t => t
  | directive o => o.text

/-- Plain text is plain, and a directive is as it should be written. -/
def WellFormed : Segment → Prop
  | plain t => t.Plain
  | directive o => o.WellFormed

end Segment

/-- The text put together from segments. -/
def textOf (segments : List Segment) : Text :=
  segments.flatMap Segment.text

@[simp] theorem textOf_nil : textOf [] = [] := rfl

@[simp] theorem textOf_cons (s : Segment) (segments : List Segment) :
    textOf (s :: segments) = s.text ++ textOf segments := rfl

/-- No segment starts with a brace, so none is taken for the display text of a
directive before it. -/
theorem head?_textOf_ne {segments : List Segment} (h : ∀ s ∈ segments, s.WellFormed) :
    (textOf segments).head? ≠ some '\x7b' := by
  induction segments with
  | nil => exact fun h => nomatch h
  | cons s segments ih =>
    obtain ⟨hs, more⟩ := List.forall_mem_cons.mp h
    rw [textOf_cons]
    cases s with
    | directive o =>
      rcases o with ⟨_ | _, name, payload, display⟩ <;> simp [Segment.text, Occurrence.text]
    | plain t =>
      cases t with
      | nil => exact ih more
      | cons c t =>
        have plain := (Text.plain_cons.mp hs).1
        rintro brace
        obtain rfl : c = '\x7b' := by simpa [Segment.text] using brace
        exact plain (by decide)

theorem not_newline_mem_textOf {segments : List Segment} (h : ∀ s ∈ segments, s.WellFormed) :
    '\n' ∉ textOf segments := by
  intro mem
  obtain ⟨s, hs, hc⟩ := List.mem_flatMap.mp mem
  cases s with
  | plain t => exact (h _ hs).not_mem (by decide) hc
  | directive o => exact not_newline_mem_text (h _ hs) hc

/-! ### Runs -/

section Runs

variable {α β : Type} {x : Resolve α} {f : α → Resolve β} {id i : Nat}

theorem bind_run_ok {a : α} (h : x id = (.ok a, i)) : (x >>= f) id = f a i := by
  simp [bind, ExceptT.bind, ExceptT.mk, ExceptT.bindCont, StateT.bind, h]

theorem bind_run_error {e : EnrichmentError} (h : x id = (.error e, i)) :
    (x >>= f) id = (.error e, i) := by
  simp [bind, ExceptT.bind, ExceptT.mk, ExceptT.bindCont, StateT.bind, h]
  rfl

theorem map_run_ok {g : α → β} {a : α} (h : x id = (.ok a, i)) : (g <$> x) id = (.ok (g a), i) := by
  rw [map_eq_pure_bind]
  exact bind_run_ok h

theorem map_run_error {g : α → β} {e : EnrichmentError} (h : x id = (.error e, i)) :
    (g <$> x) id = (.error e, i) := by
  rw [map_eq_pure_bind]
  exact bind_run_error h

end Runs

/-! ### One pass over segments -/

/-- What resolutions come to from every counter: a text, up to span numbers, and how
many spans it takes; or a failure. -/
abbrev Prediction := Occurrence → Option (Text × Nat)

/-- From every counter the resolution comes to what is predicted, and a text that it
gives is plain. -/
def Predicts (x : Resolve Text) : Option (Text × Nat) → Prop
  | some (t, k) => ∀ id, ∃ s, x id = (.ok s, id + k) ∧ s.Plain ∧ AgreeUpToIds s t
  | none => ∀ id, ∃ e i, x id = (.error e, i)

namespace Prediction

variable (predicted : Prediction)

/-- The text of a segment with its directive resolved. -/
def text : Segment → Text
  | .plain t => t
  | .directive o => ((predicted o).map Prod.fst).getD []

/-- The number of spans of a segment that are still to come. -/
def spans : Segment → Nat
  | .plain _ => 0
  | .directive o => ((predicted o).map Prod.snd).getD 0

/-- The number of spans that are still to come. -/
def pending (segments : List Segment) : Nat :=
  (segments.map predicted.spans).sum

@[simp] theorem pending_nil : predicted.pending [] = 0 := rfl

@[simp] theorem pending_cons (s : Segment) (segments : List Segment) :
    predicted.pending (s :: segments) = predicted.spans s + predicted.pending segments := rfl

/-- A segment as it was, or a directive that has become plain text as predicted. -/
inductive Settles : Segment → Segment → Prop
  | same (s : Segment) : Settles s s
  | resolved {o : Occurrence} {s t : Text} {k : Nat} : predicted o = some (t, k) → s.Plain →
      AgreeUpToIds s t → Settles (.directive o) (.plain s)

variable {predicted}

theorem Settles.wellFormed {s s' : Segment} (h : predicted.Settles s s') (hs : s.WellFormed) :
    s'.WellFormed := by
  cases h with
  | same => exact hs
  | resolved _ plain _ => exact plain

theorem Settles.trans {s t u : Segment} (h : predicted.Settles s t) (h' : predicted.Settles t u) :
    predicted.Settles s u := by
  cases h with
  | same => exact h'
  | resolved found plain agree =>
    cases h' with
    | same => exact .resolved found plain agree

/-- Segments of which some directives have been resolved. -/
structure Settled (selects : Occurrence → Prop) (segments settled : List Segment) : Prop where
  settles : List.Forall₂ predicted.Settles segments settled
  left : ∀ o, .directive o ∈ settled ↔ .directive o ∈ segments ∧ ¬ selects o

variable {selects : Occurrence → Prop} {segments settled : List Segment}

theorem Settled.wellFormed (h : predicted.Settled selects segments settled)
    (formed : ∀ s ∈ segments, s.WellFormed) : ∀ s ∈ settled, s.WellFormed := by
  have settles := h.settles
  clear h
  induction settles with
  | nil => exact formed
  | cons first _ ih =>
    obtain ⟨hs, more⟩ := List.forall_mem_cons.mp formed
    exact List.forall_mem_cons.mpr ⟨first.wellFormed hs, ih more⟩

theorem Settled.trans {selects' : Occurrence → Prop} {final : List Segment}
    (h : predicted.Settled selects segments settled)
    (h' : predicted.Settled selects' settled final) :
    predicted.Settled (fun o => selects o ∨ selects' o) segments final where
  settles := by
    have first := h.settles
    have second := h'.settles
    clear h h'
    induction first generalizing final with
    | nil => exact second
    | cons hs _ ih =>
      cases second with
      | cons ht more => exact .cons (hs.trans ht) (ih more)
  left o := by rw [h'.left, h.left, not_or, and_assoc]

/-- When no directive is left, the text is the one predicted. -/
theorem settles_of_no_directive (h : List.Forall₂ predicted.Settles segments settled)
    (none_left : ∀ o, .directive o ∉ settled) :
    AgreeUpToIds (textOf settled) (segments.flatMap predicted.text) ∧
      predicted.pending settled = 0 ∧ ∀ o, .directive o ∈ segments → predicted o ≠ none := by
  induction h with
  | nil => exact ⟨.nil, rfl, fun o mem => nomatch mem⟩
  | @cons s s' segments settled first _ ih =>
    obtain ⟨agree, pending, found⟩ := ih fun o mem => none_left o (List.mem_cons_of_mem s' mem)
    cases first with
    | same =>
      cases s with
      | directive o => exact absurd List.mem_cons_self (none_left o)
      | plain t =>
        refine ⟨agree.append_left t, ?_, fun o mem => ?_⟩
        · rw [pending_cons, pending, spans]
        · rcases List.mem_cons.mp mem with eq | mem
          · cases eq
          · exact found o mem
    | @resolved o s t k expected _ agree' =>
      have text : predicted.text (.directive o) = t := by simp [Prediction.text, expected]
      refine ⟨?_, ?_, fun o' mem => ?_⟩
      · rw [textOf_cons, List.flatMap_cons, text]
        exact agree'.append agree
      · rw [pending_cons, pending, spans]
      · rcases List.mem_cons.mp mem with eq | mem
        · cases eq
          simp [expected]
        · exact found o' mem

end Prediction

/-- A recognizer for a pass over segments: it finds the selected directives, and
nothing else. -/
structure Handles (recognize : Text → Option Occurrence) (selects : Occurrence → Prop)
    (segments : List Segment) : Prop where
  plain : ∀ t, .plain t ∈ segments → Silent recognize t
  selected : ∀ o, .directive o ∈ segments → selects o → Recognizes recognize o
  unselected : ∀ o, .directive o ∈ segments → ¬ selects o → Silent recognize o.text

section Pass

variable {recognize : Text → Option Occurrence} {selects : Occurrence → Prop}
variable {resolve : Occurrence → Resolve Text} {predicted : Prediction}

theorem Handles.tail {s : Segment} {segments : List Segment}
    (h : Handles recognize selects (s :: segments)) : Handles recognize selects segments where
  plain t ht := h.plain t (List.mem_cons_of_mem s ht)
  selected o ho := h.selected o (List.mem_cons_of_mem s ho)
  unselected o ho := h.unselected o (List.mem_cons_of_mem s ho)

/-- The text of a pass. -/
def passOver (recognize : Text → Option Occurrence) (resolve : Occurrence → Resolve Text)
    (t : Text) : Resolve Text :=
  Directive.replaceAll resolve (scan recognize t)

theorem passOver_silent {a : Text} (silent : Silent recognize a) (rest : Text) :
    passOver recognize resolve (a ++ rest) =
      (fun t => a ++ t) <$> passOver recognize resolve rest := by
  rw [passOver, scan_append_of_silent silent, replaceAll_plain_append, passOver]

theorem passOver_recognized {o : Occurrence} {rest : Text}
    (found : recognize (o.text ++ rest) = some o) :
    passOver recognize resolve (o.text ++ rest) =
      resolve o >>= fun s => (fun t => s ++ t) <$> passOver recognize resolve rest := by
  rw [passOver, scan_append_of_recognized found, Directive.replaceAll]
  simp only [map_eq_pure_bind, passOver]

theorem passOver_nil : passOver recognize resolve [] = pure [] := by
  rw [passOver, scan]
  rfl

theorem passOver_of_silent {t : Text} (silent : Silent recognize t) :
    passOver recognize resolve t = pure t := by
  have h : passOver recognize resolve (t ++ []) = (t ++ ·) <$> passOver recognize resolve [] :=
    passOver_silent silent []
  rwa [List.append_nil, passOver_nil, map_pure, List.append_nil] at h

theorem passOver_directive {o : Occurrence} (found : Recognizes recognize o) :
    passOver recognize resolve o.text = resolve o := by
  have h : passOver recognize resolve (o.text ++ []) =
      resolve o >>= fun s => (s ++ ·) <$> passOver recognize resolve [] :=
    passOver_recognized (found [] fun _ => nofun)
  rw [List.append_nil] at h
  simpa [passOver_nil] using h

theorem passOver_between {a b : Text} (before : Silent recognize a)
    (after : Silent recognize b) {o : Occurrence} (found : recognize (o.text ++ b) = some o) :
    passOver recognize resolve (a ++ (o.text ++ b)) = (fun t => a ++ (t ++ b)) <$> resolve o := by
  rw [passOver_silent before, passOver_recognized found, passOver_of_silent after]
  simp

/-- How a pass over segments from a counter can end: with the selected directives
resolved, where the numbers used up and those still to come have a constant sum; or
with an error, when one of the directives is predicted to fail. -/
inductive Ends (predicted : Prediction) (selects : Occurrence → Prop) (segments : List Segment)
    (id : Nat) : Except EnrichmentError Text × Nat → Prop
  | settled (settled : List Segment) (i : Nat) : predicted.Settled selects segments settled →
      i + predicted.pending settled = id + predicted.pending segments →
      Ends predicted selects segments id (.ok (textOf settled), i)
  | failed {o : Occurrence} (e : EnrichmentError) (i : Nat) : .directive o ∈ segments →
      predicted o = none → Ends predicted selects segments id (.error e, i)

variable {segments : List Segment} {id : Nat} {x : Resolve Text}

theorem Ends.cons_same {s : Segment} (unselected : ∀ o, s = .directive o → ¬ selects o)
    (h : Ends predicted selects segments id (x id)) :
    Ends predicted selects (s :: segments) id
      (((fun t => s.text ++ t) <$> x : Resolve Text) id) := by
  generalize hx : x id = r at h
  cases h with
  | failed e i mem fails =>
    rw [map_run_error hx]
    exact .failed e i (List.mem_cons_of_mem s mem) fails
  | settled settled i h sum =>
    rw [map_run_ok hx]
    refine .settled (s :: settled) i ⟨.cons (.same s) h.settles, fun o => ?_⟩ ?_
    · rw [List.mem_cons, List.mem_cons, h.left]
      constructor
      · rintro (rfl | ⟨mem, other⟩)
        · exact ⟨.inl rfl, unselected o rfl⟩
        · exact ⟨.inr mem, other⟩
      · rintro ⟨rfl | mem, other⟩
        · exact .inl rfl
        · exact .inr ⟨mem, other⟩
    · simp only [Prediction.pending_cons]
      omega

theorem Ends.cons_resolved {o : Occurrence} (selected : selects o) {s t : Text} {k : Nat}
    (found : predicted o = some (t, k)) (plain : s.Plain) (agree : AgreeUpToIds s t)
    (h : Ends predicted selects segments (id + k) (x (id + k))) :
    Ends predicted selects (.directive o :: segments) id
      (((fun t => s ++ t) <$> x : Resolve Text) (id + k)) := by
  generalize hx : x (id + k) = r at h
  cases h with
  | failed e i mem fails =>
    rw [map_run_error hx]
    exact .failed e i (List.mem_cons_of_mem _ mem) fails
  | settled settled i h sum =>
    rw [map_run_ok hx]
    refine .settled (.plain s :: settled) i
      ⟨.cons (.resolved found plain agree) h.settles, fun o' => ?_⟩ ?_
    · rw [List.mem_cons, List.mem_cons, h.left]
      constructor
      · rintro (eq | ⟨mem, other⟩)
        · cases eq
        · exact ⟨.inr mem, other⟩
      · rintro ⟨eq | mem, other⟩
        · cases eq
          exact absurd selected other
        · exact .inr ⟨mem, other⟩
    · simp only [Prediction.pending_cons, Prediction.spans, found, Option.map_some,
        Option.getD_some]
      omega

/-- A pass over segments ends as it should. -/
theorem ends_passOver (formed : ∀ s ∈ segments, s.WellFormed)
    (handles : Handles recognize selects segments)
    (predicts : ∀ o, .directive o ∈ segments → selects o → Predicts (resolve o) (predicted o))
    (id : Nat) :
    Ends predicted selects segments id (passOver recognize resolve (textOf segments) id) := by
  induction segments generalizing id with
  | nil =>
    have run : passOver recognize resolve (textOf []) id = (.ok (textOf []), id) := by
      rw [textOf_nil, passOver, scan]
      rfl
    rw [run]
    exact .settled [] id ⟨.nil, by simp⟩ rfl
  | cons s segments ih =>
    obtain ⟨hs, more⟩ := List.forall_mem_cons.mp formed
    have ih := ih more handles.tail fun o ho => predicts o (List.mem_cons_of_mem s ho)
    rw [textOf_cons]
    cases s with
    | plain t =>
      rw [Segment.text, passOver_silent (handles.plain t List.mem_cons_self)]
      exact (ih id).cons_same fun o eq => by cases eq
    | directive o =>
      rw [Segment.text]
      by_cases selected : selects o
      · have found := handles.selected o List.mem_cons_self selected (textOf segments)
          fun _ => head?_textOf_ne more
        rw [passOver_recognized found]
        have outcome := predicts o List.mem_cons_self selected
        cases expected : predicted o with
        | none =>
          rw [expected] at outcome
          obtain ⟨e, i, run⟩ := outcome id
          rw [bind_run_error run]
          exact .failed e i List.mem_cons_self expected
        | some r =>
          rw [expected] at outcome
          obtain ⟨s, run, plain, agree⟩ := outcome id
          rw [bind_run_ok run]
          exact .cons_resolved selected expected plain agree (ih _)
      · rw [passOver_silent (handles.unselected o List.mem_cons_self selected)]
        exact (ih id).cons_same fun o' eq => by
          cases eq
          exact selected

/-- One pass after another. -/
theorem Ends.bind {selects' : Occurrence → Prop} {f : Text → Resolve Text}
    (first : Ends predicted selects segments id (x id))
    (next : ∀ settled i, predicted.Settled selects segments settled →
      Ends predicted selects' settled i (f (textOf settled) i)) :
    Ends predicted (fun o => selects o ∨ selects' o) segments id ((x >>= f) id) := by
  generalize hx : x id = r at first
  cases first with
  | failed e i mem fails =>
    rw [bind_run_error hx]
    exact .failed e i mem fails
  | settled settled i h sum =>
    rw [bind_run_ok hx]
    have next := next settled i h
    generalize f (textOf settled) i = r at next
    cases next with
    | failed e i' mem fails => exact .failed e i' ((h.left _).mp mem).1 fails
    | settled final i' h' sum' => exact .settled final i' (h.trans h') (sum'.trans sum)

end Pass

end RuleText.Enricher
