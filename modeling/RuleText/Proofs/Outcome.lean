import Mathlib.Algebra.Order.Ring.Int

/-!
# Results of computations that may fail

When a computation put together from parts succeeds.
-/

namespace RuleText

variable {ε α β : Type}

theorem bind_eq_ok {x : Except ε α} {f : α → Except ε β} {b : β} :
    x >>= f = .ok b ↔ ∃ a, x = .ok a ∧ f a = .ok b := by
  cases x with
  | error e => simp [bind, Except.bind]
  | ok a => simp [bind, Except.bind]

theorem bind_eq_error {x : Except ε α} {f : α → Except ε β} {e : ε} :
    x >>= f = .error e ↔ x = .error e ∨ ∃ a, x = .ok a ∧ f a = .error e := by
  cases x with
  | error e' => simp [bind, Except.bind]
  | ok a => simp [bind, Except.bind]

theorem map_eq_ok {x : Except ε α} {f : α → β} {b : β} :
    x.map f = .ok b ↔ ∃ a, x = .ok a ∧ f a = b := by
  cases x with
  | error e => simp [Except.map]
  | ok a => simp [Except.map]

theorem map_eq_error {x : Except ε α} {f : α → β} {e : ε} : x.map f = .error e ↔ x = .error e := by
  cases x with
  | error e' => simp [Except.map]
  | ok a => simp [Except.map]

section Fold

variable {f : β → α → Except ε β} {xs : List α} {b r : β}

theorem foldlM_cons_eq_ok {x : α} :
    (x :: xs).foldlM f b = .ok r ↔ ∃ b', f b x = .ok b' ∧ xs.foldlM f b' = .ok r := by
  rw [List.foldlM_cons]
  exact bind_eq_ok

theorem foldlM_nil_eq_ok : ([] : List α).foldlM f b = .ok r ↔ b = r := by
  rw [List.foldlM_nil]
  constructor
  · rintro ⟨⟩
    rfl
  · rintro rfl
    rfl

/-- A fold fails in one of its steps. -/
theorem exists_of_foldlM_eq_error {e : ε} (h : xs.foldlM f b = .error e) :
    ∃ b', ∃ x ∈ xs, f b' x = .error e := by
  induction xs generalizing b with
  | nil => cases h
  | cons x xs ih =>
    rw [List.foldlM_cons] at h
    cases first : f b x with
    | error e' =>
      rw [first] at h
      cases h
      exact ⟨b, x, List.mem_cons_self, first⟩
    | ok b' =>
      rw [first] at h
      obtain ⟨b', y, hy, failed⟩ := ih h
      exact ⟨b', y, List.mem_cons_of_mem x hy, failed⟩

/-- What every step keeps, the whole fold keeps. -/
theorem foldlM_keeps {P : β → Prop} (h : xs.foldlM f b = .ok r) (start : P b)
    (step : ∀ x ∈ xs, ∀ b b', P b → f b x = .ok b' → P b') : P r := by
  induction xs generalizing b with
  | nil =>
    obtain rfl := foldlM_nil_eq_ok.mp h
    exact start
  | cons x xs ih =>
    obtain ⟨b', first, h⟩ := foldlM_cons_eq_ok.mp h
    obtain ⟨one, more⟩ := List.forall_mem_cons.mp step
    exact ih h (one b b' start first) more

/-- What every step adds, the whole fold adds in sum. -/
theorem foldlM_adds (m : β → Int) {gain : α → Int} (h : xs.foldlM f b = .ok r)
    (step : ∀ b x b', f b x = .ok b' → m b' = m b + gain x) :
    m r = m b + (xs.map gain).sum := by
  induction xs generalizing b with
  | nil =>
    obtain rfl := foldlM_nil_eq_ok.mp h
    exact (Int.add_zero _).symm
  | cons x xs ih =>
    obtain ⟨b', first, h⟩ := foldlM_cons_eq_ok.mp h
    rw [ih h, step b x b' first, List.map_cons, List.sum_cons, Int.add_assoc]

end Fold

end RuleText
