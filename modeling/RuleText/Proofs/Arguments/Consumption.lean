import Mathlib.Data.List.Induction
import Mathlib.Data.List.Nodup
import RuleText.Arguments

/-!
# Every argument is used once

A directive asks for its arguments by a sequence of requests, which all work on the same
arguments. Two things are said of a request: which arguments it uses up (`Request.Wants`)
and what it answers to these arguments (`Request.answer`). The answer is a function of
the arguments that this very request has used up, so no argument can be read twice, in
whatever order requests are made (`calls_use_once`).

Arguments are told apart by their indexes, for keys and values may be repeated.
-/

namespace RuleText

/-- Key and value. -/
def Argument.pair (a : Argument) : Text × Text := (a.key, a.value)

namespace Arguments

/-! ### Requests -/

/-- What a directive can ask of its arguments. -/
inductive Request where
  | flag (key : Text) (default : Bool)
  | value (key : Text) (default : Option Text)
  | set (key : Text) (default : List Text)
  | resolved (key : Text) (data : RollData)
  | index (i : Nat)
  | indexOr (i : Nat) (default : Option Text)
  | positional
  | ignore (keys : List Text)

/-- A request, or the check that nothing is left over. -/
inductive Command where
  | request (r : Request)
  | checkUsed

/-- What a command gives back. -/
inductive Answer where
  | flag (given : Bool)
  | value (value : Option Text)
  | values (values : List Text)
  | required (value : Except EnrichmentError Text)
  | done
  | checked (result : Except EnrichmentError Unit)

/-- The answer to a request, and the arguments afterwards. -/
def perform (args : Arguments) : Request → Answer × Arguments
  | .flag key default => (args.takeFlag key default).map .flag id
  | .value key default => (args.takeValue key default).map .value id
  | .set key default => (args.takeSet key default).map .values id
  | .resolved key data => (args.takeResolved key data).map .value id
  | .index i => (args.takeIndex i).map .required id
  | .indexOr i default => (args.takeIndexOr i default).map .value id
  | .positional => args.takePositional.map .values id
  | .ignore keys => (.done, args.ignore keys)

/-- The answer to a command, and the arguments afterwards. -/
def run (args : Arguments) : Command → Answer × Arguments
  | .request r => args.perform r
  | .checkUsed => (.checked args.checkUsed, args)

/-- A command, with the arguments before it. -/
structure Call where
  before : Arguments
  command : Command

namespace Call

variable (c : Call)

/-- What the call answers. -/
def answer : Answer := (c.before.run c.command).1

/-- The arguments after the call. -/
def after : Arguments := (c.before.run c.command).2

end Call

/-- The calls of a sequence of commands. -/
def calls (args : Arguments) : List Command → List Call
  | [] => []
  | command :: more => ⟨args, command⟩ :: calls (args.run command).2 more

/-! ### What a request should do -/

namespace Request

/-- Whether a request uses up an unused argument with the index, the key and the value. -/
def Wants (i : Nat) (pair : Text × Text) : Request → Prop
  | flag key _ | value key _ | set key _ | resolved key _ => pair.1 = key
  | index j | indexOr j _ => i = j
  | positional => pair.1 = pair.2
  | ignore keys => pair.1 ∈ keys

instance (i : Nat) (pair : Text × Text) (r : Request) : Decidable (r.Wants i pair) :=
  match r with
  | flag _ _ | value _ _ | set _ _ | resolved _ _ | positional =>
    inferInstanceAs (Decidable (_ = (_ : Text)))
  | index _ | indexOr _ _ => inferInstanceAs (Decidable (i = _))
  | ignore keys => inferInstanceAs (Decidable (pair.1 ∈ keys))

/-- The answer to a request that has used up arguments with the given keys and values, in
order. The last one counts where the request is for a key. -/
def answer (taken : List (Text × Text)) : Request → Answer
  | flag _ default =>
    .flag <| match taken.getLast? with
      | some (key, text) => text = "true".toList || key = text
      | none => default
  | value _ default => .value ((taken.getLast?.map Prod.snd).or default)
  | set _ default =>
    .values <| match taken.getLast? with
      | some (_, text) =>
        if text = [] then Text.sortedSet default
        else Text.sortedSet ((text.splitOn ',').map Text.trim)
      | none => Text.sortedSet default
  | resolved _ data => .value (taken.getLast?.map fun pair => data.resolve pair.2)
  | index i =>
    .required <| match taken with
      | (_, text) :: _ => .ok text
      | [] => .error (.missingArgument i)
  | indexOr _ default => .value ((taken.head?.map Prod.snd).or default)
  | positional => .values (taken.map Prod.snd)
  | ignore _ => .done

end Request

/-- The argument at the index has been used. -/
def UsedAt (args : Arguments) (i : Nat) : Prop :=
  ∃ a, args.entries[i]? = some a ∧ a.used = true

instance (args : Arguments) (i : Nat) : Decidable (args.UsedAt i) :=
  decidable_of_iff (args.entries[i]?.any Argument.used = true)
    (by simp [UsedAt, Option.any_eq_true])

/-- Keys and values of the arguments at those indexes for which a condition holds. -/
def pairsWhere (args : Arguments) (p : Nat → Prop) [DecidablePred p] : List (Text × Text) :=
  ((List.range args.pairs.length).filter fun i => p i).filterMap fun i => args.pairs[i]?

/-- The argument at the index is used by the call. -/
def Call.Uses (c : Call) (i : Nat) : Prop :=
  c.after.UsedAt i ∧ ¬ c.before.UsedAt i

instance (c : Call) : DecidablePred c.Uses :=
  fun _ => inferInstanceAs (Decidable (_ ∧ _))

/-- Keys and values of the arguments that are used by the call, in order. -/
def Call.taken (c : Call) : List (Text × Text) :=
  c.before.pairsWhere c.Uses

/-- Keys and values of the unused arguments, in order. -/
def unused (args : Arguments) : List (Text × Text) :=
  args.pairsWhere fun i => ¬ args.UsedAt i

/-! ### Indexes -/

/-- The members of a list at the indexes for which a condition holds, where it is one on
the members. -/
theorem filterMap_range {α β : Type} (f : α → β) (xs : List α) (p : Nat → Prop) [DecidablePred p]
    (q : α → Bool) (h : ∀ i a, xs[i]? = some a → (p i ↔ q a = true)) :
    ((List.range xs.length).filter fun i => p i).filterMap (fun i => (xs.map f)[i]?) =
      (xs.filter q).map f := by
  induction xs using List.reverseRecOn with
  | nil => rfl
  | append_singleton xs x ih =>
    have earlier : ∀ i a, xs[i]? = some a → (p i ↔ q a = true) := by
      intro i a found
      have within : i < xs.length := (List.getElem?_eq_some_iff.mp found).1
      exact h i a (by rwa [List.getElem?_append_left within])
    have last : p xs.length ↔ q x = true := h xs.length x (by simp)
    have same : ∀ i ∈ (List.range xs.length).filter fun i => p i,
        ((xs ++ [x]).map f)[i]? = (xs.map f)[i]? := by
      intro i hi
      have within : i < xs.length := List.mem_range.mp (List.mem_of_mem_filter hi)
      rw [List.map_append, List.getElem?_append_left (by simpa using within)]
    rw [List.length_append, List.length_singleton, List.range_succ, List.filter_append,
      List.filterMap_append, List.filterMap_congr same, ih earlier, List.filter_append,
      List.map_append]
    by_cases here : q x = true
    · simp [last.mpr here, here]
    · simp [mt last.mp here, here]

/-- A condition that holds at one index only. -/
theorem filterMap_range_eq {α : Type} (xs : List α) (p : Nat → Prop) [DecidablePred p] {j : Nat}
    {a : α} (found : xs[j]? = some a) (h : ∀ i < xs.length, p i ↔ i = j) :
    ((List.range xs.length).filter fun i => p i).filterMap (fun i => xs[i]?) = [a] := by
  have within : j < xs.length := (List.getElem?_eq_some_iff.mp found).1
  have only : (List.range xs.length).filter (fun i => p i) = [j] := by
    have same : ∀ i ∈ List.range xs.length, decide (p i) = (i == j) := by
      intro i hi
      rw [beq_eq_decide, decide_eq_decide]
      exact h i (List.mem_range.mp hi)
    rw [List.filter_congr same, List.filter_beq,
      List.count_eq_one_of_mem List.nodup_range (List.mem_range.mpr within)]
    rfl
  rw [only, List.filterMap_cons_some found, List.filterMap_nil]

/-! ### One request -/

theorem use_of_used {a : Argument} (used : a.used = true) : a.use = a := by
  rw [Argument.use, ← used]

section Request

variable (args : Arguments) (key : Text) (i : Nat)

theorem getElem?_takeKey :
    (args.takeKey key).2.entries[i]? =
      args.entries[i]?.map fun a => if a.key = key then a.use else a := by
  simp [takeKey, useAll]

theorem getElem?_takeAt (j : Nat) :
    (args.takeAt j).2.entries[i]? = args.entries[i]?.map fun a => if i = j then a.use else a := by
  unfold takeAt
  by_cases here : i = j
  · subst here
    cases found : args.entries[i]? with
    | none => simp [found]
    | some a =>
      have within := (List.getElem?_eq_some_iff.mp found).1
      by_cases used : a.used = true
      · simp [used, found, use_of_used used]
      · simp [used, List.getElem?_set_self within]
  · cases args.entries[j]? with
    | none => simp [here]
    | some a =>
      by_cases used : a.used = true <;> simp [used, here, List.getElem?_set_ne (Ne.symm here)]

theorem getElem?_ignore (keys : List Text) :
    (args.ignore keys).entries[i]? =
      args.entries[i]?.map fun a => if a.key ∈ keys then a.use else a := by
  unfold ignore
  induction keys generalizing args with
  | nil => simp
  | cons key keys ih =>
    rw [List.foldl_cons, ih, getElem?_takeKey, Option.map_map]
    congr 1
    funext a
    by_cases same : a.key = key <;> by_cases later : a.key ∈ keys <;>
      simp [same, later, Argument.use]

theorem takeFlag_eq (default : Bool) :
    args.takeFlag key default =
      (((args.takeKey key).1.map fun a => a.value = "true".toList || a.isPositional).getD default,
        (args.takeKey key).2) := by
  unfold takeFlag
  dsimp only
  cases (args.takeKey key).1 <;> rfl

theorem takeSet_eq (default : List Text) :
    args.takeSet key default =
      (match (args.takeKey key).1 with
        | some a =>
          if a.value = [] then Text.sortedSet default
          else Text.sortedSet ((a.value.splitOn ',').map Text.trim)
        | none => Text.sortedSet default, (args.takeKey key).2) := by
  simp only [takeSet, takeValue, Option.or_none]
  rcases args.takeKey key with ⟨_ | a, rest⟩
  · rfl
  · by_cases empty : a.value = [] <;> simp [empty]

theorem takeIndex_eq (j : Nat) :
    args.takeIndex j =
      (match (args.takeAt j).1 with
        | some a => .ok a.value
        | none => .error (.missingArgument j), (args.takeAt j).2) := by
  unfold takeIndex
  dsimp only
  cases (args.takeAt j).1 <;> rfl

/-- A request marks the arguments that it wants as used and changes nothing else. -/
theorem getElem?_perform (r : Request) :
    (args.perform r).2.entries[i]? =
      args.entries[i]?.map fun a => if r.Wants i a.pair then a.use else a := by
  cases r with
  | flag key default =>
    rw [perform, takeFlag_eq]
    exact getElem?_takeKey args key i
  | value key default => exact getElem?_takeKey args key i
  | set key default =>
    rw [perform, takeSet_eq]
    exact getElem?_takeKey args key i
  | resolved key data => exact getElem?_takeKey args key i
  | index j =>
    rw [perform, takeIndex_eq]
    exact getElem?_takeAt args i j
  | indexOr j default => exact getElem?_takeAt args i j
  | positional =>
    simp only [perform, takePositional, useAll, Prod.map_snd, id_eq, List.getElem?_map,
      Argument.isPositional, decide_eq_true_eq]
    rfl
  | ignore keys => exact getElem?_ignore args i keys

theorem pairs_perform (r : Request) : (args.perform r).2.pairs = args.pairs := by
  apply List.ext_getElem?
  intro i
  simp only [pairs, List.getElem?_map, getElem?_perform, Option.map_map]
  congr 1
  funext a
  by_cases wanted : r.Wants i a.pair <;> simp [wanted, Argument.use]

/-- What is used after a request was used before it or is wanted by it. -/
theorem usedAt_perform (r : Request) :
    (args.perform r).2.UsedAt i ↔
      args.UsedAt i ∨ ∃ a, args.entries[i]? = some a ∧ r.Wants i a.pair := by
  unfold UsedAt
  rw [getElem?_perform]
  cases args.entries[i]? with
  | none => simp
  | some a => by_cases wanted : r.Wants i a.pair <;> simp [wanted, Argument.use]

/-- The arguments that a request newly uses up are the unused ones that it wants. -/
theorem newly_perform (r : Request) :
    (args.perform r).2.UsedAt i ∧ ¬ args.UsedAt i ↔
      ¬ args.UsedAt i ∧ ∃ pair, args.pairs[i]? = some pair ∧ r.Wants i pair := by
  rw [usedAt_perform, or_and_right, and_not_self_iff, false_or, and_comm]
  simp [pairs, Argument.pair]

end Request

/-! ### What a request answers -/

section Answer

variable (args : Arguments)

theorem pairsWhere_eq {p : Nat → Prop} [DecidablePred p] {q : Argument → Bool}
    (h : ∀ i a, args.entries[i]? = some a → (p i ↔ q a = true)) :
    args.pairsWhere p = (args.entries.filter q).map Argument.pair := by
  have members := filterMap_range Argument.pair args.entries p q h
  have length : args.pairs.length = args.entries.length := args.entries.length_map Argument.pair
  rwa [← length] at members

theorem unused_eq : args.unused = args.left.map Argument.pair := by
  apply pairsWhere_eq
  intro i a found
  simp [UsedAt, found]

/-- Where the index does not matter, the arguments that are used are those left over that
satisfy a condition. -/
theorem taken_eq {r : Request} {q : Argument → Bool} (h : ∀ i a, r.Wants i a.pair ↔ q a = true) :
    args.pairsWhere (fun i => (args.perform r).2.UsedAt i ∧ ¬ args.UsedAt i) =
      (args.left.filter q).map Argument.pair := by
  rw [left, List.filter_filter]
  apply pairsWhere_eq
  intro i a found
  rw [newly_perform]
  simp [UsedAt, pairs, found, ← h i a, and_comm, Argument.pair]

theorem takeAt_eq (j : Nat) :
    (args.takeAt j).1 = args.entries[j]?.filter fun a => !a.used := by
  unfold takeAt
  cases args.entries[j]? with
  | none => rfl
  | some a => by_cases used : a.used = true <;> simp [used, Option.filter_some]

/-- Where the index matters, at most one argument is used. -/
theorem taken_at {r : Request} {j : Nat} (h : ∀ i pair, r.Wants i pair ↔ i = j) :
    args.pairsWhere (fun i => (args.perform r).2.UsedAt i ∧ ¬ args.UsedAt i) =
      ((args.takeAt j).1.map Argument.pair).toList := by
  cases taken : (args.takeAt j).1 with
  | some a =>
    rw [takeAt_eq, Option.filter_eq_some_iff] at taken
    obtain ⟨entry, unused⟩ := taken
    have pair : args.pairs[j]? = some a.pair := by simp [pairs, entry, Argument.pair]
    apply filterMap_range_eq args.pairs _ pair
    intro i _
    simp only [newly_perform, h]
    constructor
    · rintro ⟨-, _, -, same⟩
      exact same
    · rintro rfl
      exact ⟨by simpa [UsedAt, entry] using unused, a.pair, pair, rfl⟩
  | none =>
    rw [takeAt_eq, Option.filter_eq_none_iff] at taken
    have empty : (List.range args.pairs.length).filter
        (fun i => (args.perform r).2.UsedAt i ∧ ¬ args.UsedAt i) = [] := by
      rw [List.filter_eq_nil_iff]
      intro i _
      simp only [newly_perform, h, decide_eq_true_eq]
      rintro ⟨unused, pair, found, rfl⟩
      obtain ⟨a, entry, -⟩ : ∃ a, args.entries[i]? = some a ∧ a.pair = pair := by
        simpa [pairs, Argument.pair] using found
      exact unused ⟨a, entry, by simpa using taken a entry⟩
    rw [pairsWhere, empty]
    rfl

/-- The answer to a request depends on the arguments alone that it uses up. -/
theorem answer_perform (r : Request) :
    (args.perform r).1 =
      r.answer (args.pairsWhere fun i => (args.perform r).2.UsedAt i ∧ ¬ args.UsedAt i) := by
  cases r with
  | flag key default =>
    rw [taken_eq args (q := fun a => a.key = key) (by simp [Request.Wants, Argument.pair])]
    simp only [perform, takeFlag_eq, takeKey, Prod.map_fst, Request.answer, List.getLast?_map]
    cases (args.left.filter fun a => a.key = key).getLast? <;> rfl
  | value key default =>
    rw [taken_eq args (q := fun a => a.key = key) (by simp [Request.Wants, Argument.pair])]
    simp only [perform, takeValue, takeKey, Prod.map_fst, Request.answer, List.getLast?_map,
      Option.map_map]
    rfl
  | set key default =>
    rw [taken_eq args (q := fun a => a.key = key) (by simp [Request.Wants, Argument.pair])]
    simp only [perform, takeSet_eq, takeKey, Prod.map_fst, Request.answer, List.getLast?_map]
    cases (args.left.filter fun a => a.key = key).getLast? <;> rfl
  | resolved key data =>
    rw [taken_eq args (q := fun a => a.key = key) (by simp [Request.Wants, Argument.pair])]
    simp only [perform, takeResolved, takeValue, takeKey, Prod.map_fst, Request.answer,
      List.getLast?_map, Option.map_map, Option.or_none]
    rfl
  | index j =>
    rw [taken_at args (j := j) (by simp [Request.Wants])]
    rw [perform, takeIndex_eq]
    cases (args.takeAt j).1 <;> rfl
  | indexOr j default =>
    rw [taken_at args (j := j) (by simp [Request.Wants])]
    rw [perform, takeIndexOr]
    dsimp only
    cases (args.takeAt j).1 <;> rfl
  | positional =>
    rw [taken_eq args (q := Argument.isPositional)
      (by simp [Request.Wants, Argument.pair, Argument.isPositional])]
    simp only [perform, takePositional, Prod.map_fst, Request.answer, List.map_map]
    rfl
  | ignore keys => rfl

/-- The check reports exactly the unused arguments. -/
theorem checkUsed_eq :
    args.checkUsed =
      if args.unused = [] then .ok ()
      else .error (.unconsumed ((args.unused.filter fun pair => pair.1 ≠ pair.2).map Prod.fst)
        ((args.unused.filter fun pair => pair.1 = pair.2).map Prod.fst)) := by
  have keyed : (fun a : Argument => !a.isPositional) =
      (fun pair => decide (pair.1 ≠ pair.2)) ∘ Argument.pair := by
    funext a
    exact (decide_not (p := a.key = a.value)).symm
  rw [checkUsed, unused_eq, List.filter_map, List.filter_map, List.map_map, List.map_map, keyed]
  simp only [List.map_eq_nil_iff]
  rfl

theorem unused_eq_nil : args.unused = [] ↔ ∀ i < args.pairs.length, args.UsedAt i := by
  rw [unused_eq, List.map_eq_nil_iff, left, List.filter_eq_nil_iff]
  constructor
  · intro none_left i hi
    have within : i < args.entries.length := by simpa [pairs] using hi
    exact ⟨args.entries[i], List.getElem?_eq_getElem within,
      by simpa using none_left _ (List.getElem_mem within)⟩
  · intro all a ha
    obtain ⟨i, within, rfl⟩ := List.getElem_of_mem ha
    obtain ⟨a, entry, used⟩ := all i (by simpa [pairs] using within)
    rw [List.getElem?_eq_getElem within, Option.some_inj] at entry
    simpa [entry] using used

end Answer

/-! ### Sequences of commands -/

section Calls

variable {args : Arguments} {commands : List Command} {c : Call} {i : Nat}

theorem pairs_run (args : Arguments) (command : Command) :
    (args.run command).2.pairs = args.pairs := by
  cases command with
  | request r => exact pairs_perform args r
  | checkUsed => rfl

theorem usedAt_run (command : Command) (h : args.UsedAt i) : (args.run command).2.UsedAt i := by
  cases command with
  | request r => exact (usedAt_perform args i r).mpr (.inl h)
  | checkUsed => exact h

theorem lt_of_usedAt (h : args.UsedAt i) : i < args.pairs.length := by
  obtain ⟨a, found, -⟩ := h
  simpa [pairs] using (List.getElem?_eq_some_iff.mp found).1

/-- In a sequence of calls keys and values never change, and what has been used stays so. -/
theorem of_mem_calls (h : c ∈ calls args commands) :
    c.before.pairs = args.pairs ∧ ∀ i, args.UsedAt i → c.before.UsedAt i := by
  induction commands generalizing args with
  | nil => cases h
  | cons command more ih =>
    rcases List.mem_cons.mp h with rfl | later
    · exact ⟨rfl, fun _ used => used⟩
    · obtain ⟨pairs, grows⟩ := ih later
      exact ⟨pairs.trans (pairs_run args command), fun i used => grows i (usedAt_run command used)⟩

/-- What one call uses no later call uses. -/
theorem pairwise_calls (args : Arguments) (commands : List Command) :
    (calls args commands).Pairwise fun c d => ∀ i, c.Uses i → ¬ d.Uses i := by
  induction commands generalizing args with
  | nil => exact .nil
  | cons command more ih =>
    refine .cons ?_ (ih _)
    rintro d later i ⟨used, -⟩ ⟨-, unused⟩
    exact unused ((of_mem_calls later).2 i used)

theorem not_usedAt_ofText (raw : Text) (separator keyValueSeparator : Char) (context : Text)
    (i : Nat) : ¬ (ofText raw separator keyValueSeparator context).UsedAt i := by
  rintro ⟨a, found, used⟩
  obtain ⟨t, -, rfl⟩ := List.mem_map.mp (List.mem_of_getElem? found)
  unfold Argument.ofText at used
  split at used <;> cases used

/-- Arguments are used once, whatever is asked of them in whatever order.

At the start no argument is used. Commands never change keys and values, and what has been
used stays so. No argument is used by two calls. A request uses exactly the unused
arguments that it wants, and its answer is made of these alone. The check uses nothing; it
succeeds when all arguments have been used, and else it lists the keys of the unused ones,
in order, with the positional ones apart. -/
theorem calls_use_once (raw : Text) (separator keyValueSeparator : Char) (context : Text)
    (commands : List Command) :
    let start := ofText raw separator keyValueSeparator context
    let log := calls start commands
    (∀ i, ¬ start.UsedAt i) ∧
    (∀ c ∈ log, c.before.pairs = start.pairs ∧ c.after.pairs = start.pairs ∧
      (∀ i, c.before.UsedAt i → c.after.UsedAt i) ∧
      ∀ i, c.after.UsedAt i → i < start.pairs.length) ∧
    (log.Pairwise fun c d => ∀ i, c.Uses i → ¬ d.Uses i) ∧
    (∀ c ∈ log, ∀ r, c.command = .request r →
      (∀ i, c.Uses i ↔ ¬ c.before.UsedAt i ∧
        ∃ pair, start.pairs[i]? = some pair ∧ r.Wants i pair) ∧
      c.answer = r.answer c.taken) ∧
    ∀ c ∈ log, c.command = .checkUsed →
      (∀ i, ¬ c.Uses i) ∧
      (c.answer = .checked (.ok ()) ↔ ∀ i < start.pairs.length, c.before.UsedAt i) ∧
      ((¬ ∀ i < start.pairs.length, c.before.UsedAt i) →
        c.answer = .checked (.error (.unconsumed
          ((c.before.unused.filter fun pair => pair.1 ≠ pair.2).map Prod.fst)
          ((c.before.unused.filter fun pair => pair.1 = pair.2).map Prod.fst)))) := by
  intro start log
  refine ⟨not_usedAt_ofText _ _ _ _, ?_, pairwise_calls start commands, ?_, ?_⟩
  · intro c hc
    have before : c.before.pairs = start.pairs := (of_mem_calls hc).1
    have after : c.after.pairs = start.pairs := (pairs_run c.before c.command).trans before
    refine ⟨before, after, fun i used => usedAt_run c.command used, fun i used => ?_⟩
    rw [← after]
    exact lt_of_usedAt used
  · rintro ⟨before, _⟩ hc r rfl
    have pairs : before.pairs = start.pairs := (of_mem_calls hc).1
    rw [← pairs]
    exact ⟨fun i => newly_perform before i r, answer_perform before r⟩
  · rintro ⟨before, _⟩ hc rfl
    have pairs : before.pairs = start.pairs := (of_mem_calls hc).1
    have answer : Call.answer ⟨before, .checkUsed⟩ = .checked before.checkUsed := rfl
    rw [← pairs, ← unused_eq_nil, answer, checkUsed_eq]
    refine ⟨fun i => and_not_self, ?_, fun some_left => ?_⟩
    · by_cases none_left : before.unused = []
      · simp [none_left]
      · simp [none_left]
    · rw [if_neg some_left]

/-- Two arguments of the same text are still two arguments. -/
example :
    (calls (ofText "2d6 + 2d6".toList ' ' '=' [])
      [.request (.index 2), .request .positional]).map (fun c => c.taken.map Prod.fst) =
      [["2d6".toList], ["2d6".toList, ['+']]] := by
  decide

end Calls

end Arguments

end RuleText
