import RuleText.Proofs.Arguments.Consumption

/-!
# What is left of the arguments

For what a handler answers it matters only which arguments are unused, and in which order.
Each operation on arguments is described here by what it answers to the unused keys and
values (`Arguments.unused`) and by what it leaves of them. A lookup by key is a filter
(`unused_takeKey`), and the handler succeeds if in the end nothing is left
(`outcome_ok`).
-/

namespace RuleText.Arguments

/-! ### Lookups in keys and values -/

section Lookups

variable {key : Text} {pairs : List (Text × Text)}

/-- The last value that stands under a key. -/
def lastOf (key : Text) (pairs : List (Text × Text)) : Option Text :=
  ((pairs.filter fun pair => pair.1 = key).getLast?).map Prod.snd

/-- Whether the last value under a key is `true` or the key itself, as where the key stands
alone. -/
def flagOf (key : Text) (pairs : List (Text × Text)) : Bool :=
  (lastOf key pairs).any fun value => value = "true".toList || key = value

/-- The pairs whose keys are not listed. -/
def without (keys : List Text) (pairs : List (Text × Text)) : List (Text × Text) :=
  pairs.filter fun pair => pair.1 ∉ keys

/-- The error for pairs that are left over. -/
def leftover (pairs : List (Text × Text)) : EnrichmentError :=
  .unconsumed ((pairs.filter fun pair => pair.1 ≠ pair.2).map Prod.fst)
    ((pairs.filter fun pair => pair.1 = pair.2).map Prod.fst)

theorem without_without (keys keys' : List Text) :
    without keys' (without keys pairs) = without (keys ++ keys') pairs := by
  rw [without, without, List.filter_filter, without]
  refine List.filter_congr fun pair _ => ?_
  rw [← Bool.decide_and, decide_eq_decide, List.mem_append, not_or, and_comm]

theorem without_cons {keys : List Text} {pair : Text × Text} (unlisted : pair.1 ∉ keys) :
    without keys (pair :: pairs) = pair :: without keys pairs :=
  List.filter_cons_of_pos (decide_eq_true unlisted)

theorem without_eq_nil {keys : List Text} :
    without keys pairs = [] ↔ ∀ pair ∈ pairs, pair.1 ∈ keys := by
  simp [without, List.filter_eq_nil_iff]

/-- A lookup does not see whether other keys have been taken out. -/
theorem lastOf_without {keys : List Text} (other : key ∉ keys) :
    lastOf key (without keys pairs) = lastOf key pairs := by
  have same : (fun pair : Text × Text => decide (pair.1 = key) && decide (pair.1 ∉ keys)) =
      fun pair => decide (pair.1 = key) := by
    funext pair
    by_cases here : pair.1 = key
    · simp [here, other]
    · simp [here]
  rw [lastOf, without, List.filter_filter, same, lastOf]

theorem flagOf_without {keys : List Text} (other : key ∉ keys) :
    flagOf key (without keys pairs) = flagOf key pairs := by
  rw [flagOf, lastOf_without other, flagOf]

theorem lastOf_eq_none : lastOf key pairs = none ↔ ∀ pair ∈ pairs, pair.1 ≠ key := by
  simp [lastOf]

/-- Where no positional pair is left over, the error lists keys only. -/
theorem leftover_keyed :
    leftover (pairs.filter fun pair => pair.1 ≠ pair.2) =
      .unconsumed ((pairs.filter fun pair => pair.1 ≠ pair.2).map Prod.fst) [] := by
  have keyed :
      (pairs.filter fun pair => pair.1 ≠ pair.2).filter (fun pair => pair.1 = pair.2) = [] := by
    simp
  rw [leftover, keyed, List.filter_filter]
  simp only [Bool.and_self]
  rfl

end Lookups

/-! ### Operations -/

section Operations

variable (args : Arguments) (key : Text)

theorem left_ofText (raw : Text) (separator keyValueSeparator : Char) (context : Text) :
    (ofText raw separator keyValueSeparator context).left =
      (ofText raw separator keyValueSeparator context).entries := by
  refine List.filter_eq_self.mpr fun a ha => ?_
  obtain ⟨i, within, rfl⟩ := List.getElem_of_mem ha
  rw [Bool.not_eq_true']
  exact eq_false_of_ne_true fun used =>
    not_usedAt_ofText raw separator keyValueSeparator context i
      ⟨_, List.getElem?_eq_getElem within, used⟩

theorem unused_ofText (raw : Text) (separator keyValueSeparator : Char) (context : Text) :
    (ofText raw separator keyValueSeparator context).unused =
      (ofText raw separator keyValueSeparator context).pairs := by
  rw [unused_eq, left_ofText]
  rfl

/-- Marking arguments takes them out of what is left. -/
theorem left_useAll (p : Argument → Bool) :
    (args.useAll p).left = args.left.filter fun a => !p a := by
  have kept : ∀ a ∈ args.entries.filter ((fun a => !a.used) ∘ fun a => if p a then a.use else a),
      (if p a then a.use else a) = a := by
    intro a ha
    have unused := (List.mem_filter.mp ha).2
    by_cases marked : p a
    · simp [marked, Argument.use] at unused
    · simp [marked]
  rw [left, left, useAll, List.filter_map, List.map_congr_left kept, List.map_id',
    List.filter_filter]
  refine List.filter_congr fun a _ => ?_
  by_cases marked : p a <;> simp [marked, Argument.use]

theorem unused_useAll {p : Argument → Bool} {q : Text × Text → Bool} (h : ∀ a, p a = q a.pair) :
    (args.useAll p).unused = args.unused.filter fun pair => !q pair := by
  rw [unused_eq, unused_eq, left_useAll, List.filter_map]
  congr 2
  funext a
  rw [h]
  rfl

theorem unused_takeKey : (args.takeKey key).2.unused = without [key] args.unused := by
  refine (unused_useAll args (q := fun pair => pair.1 = key) fun _ => rfl).trans ?_
  simp [without]

theorem unused_ignore (keys : List Text) :
    (args.ignore keys).unused = without keys args.unused := by
  unfold ignore
  induction keys generalizing args with
  | nil => simp [without]
  | cons key keys ih =>
    rw [List.foldl_cons, ih, unused_takeKey, without_without, List.singleton_append]

theorem takeKey_fst :
    (args.takeKey key).1.map Argument.pair =
      (args.unused.filter fun pair => pair.1 = key).getLast? := by
  rw [takeKey, ← List.getLast?_map, unused_eq, List.filter_map]
  rfl

theorem takeValue_eq :
    args.takeValue key none = (lastOf key args.unused, (args.takeKey key).2) := by
  rw [takeValue, lastOf, ← takeKey_fst, Option.map_map]
  exact Prod.ext (Option.or_none) rfl

theorem takeResolved_eq (data : RollData) :
    args.takeResolved key data =
      ((lastOf key args.unused).map data.resolve, (args.takeKey key).2) := by
  rw [takeResolved, takeValue_eq]

theorem takeFlag_eq_flagOf :
    args.takeFlag key false = (flagOf key args.unused, (args.takeKey key).2) := by
  rw [takeFlag_eq, flagOf, lastOf, ← takeKey_fst]
  cases found : (args.takeKey key).1 with
  | none => rfl
  | some a =>
    have here : a.key = key := by
      simpa using (List.mem_filter.mp (List.mem_of_getLast? found)).2
    subst here
    rfl

/-- The first argument, if it is unused, is the first of the unused ones. -/
theorem unused_of_head {a : Argument} {more : List Argument} (head : args.entries = a :: more)
    (fresh : a.used = false) :
    args.unused = a.pair :: unused { args with entries := a.use :: more } := by
  simp [unused_eq, left, head, fresh, Argument.use]

theorem takePositional_eq :
    args.takePositional =
      ((args.unused.filter fun pair => pair.1 = pair.2).map Prod.snd,
        args.useAll Argument.isPositional) := by
  rw [takePositional, unused_eq, List.filter_map, List.map_map]
  rfl

theorem unused_useAll_isPositional :
    (args.useAll Argument.isPositional).unused =
      args.unused.filter fun pair => pair.1 ≠ pair.2 := by
  refine (unused_useAll args (q := fun pair => pair.1 = pair.2) fun _ => rfl).trans ?_
  simp

/-- What comes of a use of the arguments depends on what is left over. -/
theorem outcome_ok {α : Type} (a : α) (rest : Arguments) :
    args.outcome (.ok (a, rest)) =
      if rest.unused = [] then .ok a
      else .error (.annotated args.context args.raw (leftover rest.unused)) := by
  rw [outcome]
  dsimp only [Bind.bind, Except.bind]
  rw [checkUsed_eq]
  split_ifs <;> rfl

end Operations

end RuleText.Arguments
