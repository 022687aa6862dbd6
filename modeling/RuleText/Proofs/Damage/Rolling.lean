import Mathlib.Algebra.Order.BigOperators.Group.List
import RuleText.Proofs.Damage.Invariant
import RuleText.Proofs.Damage.Totals

/-!
# The dice of a roll

What an instance asks of its roller is seen by a second roller, which gives the same results
and writes them down. An instance asks for the dice of one term after the other, so many with
so many sides as the term says. Dice with more sides than a word can count are left out: they
come up in formulas, they count in averages, and they add nothing to a roll but their modifier
(`roll_of_ofText`).
-/

namespace RuleText.Damage

/-! ### Writing down -/

/-- Dice with the same number of sides that have been rolled together. -/
structure Draw where
  count : Nat
  sides : Nat
  results : List Nat

/-- What the roller was asked for: a number of dice and their sides. -/
def Draw.request (draw : Draw) : Nat × Nat :=
  (draw.count, draw.sides)

/-- The number of dice the roller was asked for. -/
def asked (draws : List Draw) : Nat :=
  (draws.map Draw.count).sum

/-- The number of dice the roller has rolled. -/
def rolled (draws : List Draw) : Nat :=
  (draws.map fun draw => draw.results.length).sum

namespace Roller

variable {σ : Type}

/-- The same roller with a log of all dice. -/
def logged (roller : Roller σ) : Roller (σ × List Draw) where
  rolls count sides := fun (s, log) =>
    let (results, s) := roller.rolls count sides s
    (results, s, log ++ [⟨count, sides, results⟩])

/-- The roller rolls as many dice as it is asked for. -/
def Complete (roller : Roller σ) : Prop :=
  ∀ count sides s, (roller.rolls count sides s).1.length = count

/-- With the log, a computation does what it does without it, and the dice that are added to
the log answer the requests in their order. -/
def Logs {α : Type} (roller : Roller σ) (requests : List (Nat × Nat)) (plain : StateM σ α)
    (logging : StateM (σ × List Draw) α) : Prop :=
  ∀ s log, ∃ draws, logging (s, log) = ((plain s).1, (plain s).2, log ++ draws) ∧
    draws.map Draw.request = requests ∧ (roller.Complete → rolled draws = asked draws)

namespace Logs

variable {α β : Type} {roller : Roller σ} {requests requests' : List (Nat × Nat)}

theorem pure (a : α) : roller.Logs [] (pure a) (pure a) := by
  intro s log
  refine ⟨[], ?_, rfl, fun _ => rfl⟩
  rw [List.append_nil]
  rfl

theorem bind {plain : StateM σ α} {logging : StateM (σ × List Draw) α} {f : α → StateM σ β}
    {f' : α → StateM (σ × List Draw) β} (first : roller.Logs requests plain logging)
    (next : ∀ a, roller.Logs requests' (f a) (f' a)) :
    roller.Logs (requests ++ requests') (plain >>= f) (logging >>= f') := by
  intro s log
  obtain ⟨draws, done, answers, complete⟩ := first s log
  obtain ⟨draws', done', answers', complete'⟩ :=
    next (plain s).1 (plain s).2 (log ++ draws)
  refine ⟨draws ++ draws', ?_, ?_, fun h => ?_⟩
  · show f' (logging (s, log)).1 (logging (s, log)).2 = _
    rw [done, done', List.append_assoc]
    rfl
  · rw [List.map_append, answers, answers']
  · have all := complete h
    have all' := complete' h
    simp only [rolled, asked, List.map_append, List.sum_append] at all all' ⊢
    omega

theorem rolls (count sides : Nat) :
    roller.Logs [(count, sides)] (roller.rolls count sides) (roller.logged.rolls count sides) := by
  intro s log
  refine ⟨[⟨count, sides, (roller.rolls count sides s).1⟩], rfl, rfl, fun h => ?_⟩
  simp [rolled, asked, h count sides s]

end Logs

/-! ### Rollers that are at hand -/

theorem length_rollEach (die : StateM σ Nat) (count : Nat) (s : σ) :
    (rollEach die count s).1.length = count := by
  induction count generalizing s with
  | zero => rfl
  | succ count ih =>
    show (rollEach die count (die s).2).1.length + 1 = count + 1
    rw [ih]

theorem complete_step (step : Nat) : (StepRoller.roller step).Complete :=
  fun count _ s => length_rollEach _ count s

theorem complete_words : WordSource.roller.Complete :=
  fun count _ s => length_rollEach _ count s

end Roller

/-! ### The requests of an instance -/

/-- What a term asks of a roller. -/
def Term.requests : Term → List (Nat × Nat)
  | constant _ => []
  | dice d =>
    if 0 < d.size.toInt ∧ d.size.toInt < wordLimit then [(d.count.toInt.toNat, d.size.toInt.toNat)]
    else []

/-- What all terms ask of a roller, in their order. -/
def Instance.requests (i : Instance) : List (Nat × Nat) :=
  i.terms.flatMap Term.requests

section Logged

variable {σ : Type} (roller : Roller σ)

theorem Term.logs_roll (t : Term) :
    roller.Logs t.requests (t.roll roller) (t.roll roller.logged) := by
  cases t with
  | constant c => exact .pure c
  | dice d =>
    simp only [Term.requests, Term.roll, Dice.roll, Dice.sides?]
    split_ifs
    · exact (Roller.Logs.rolls _ _).bind fun results => .pure _
    · exact (Roller.Logs.pure []).bind fun results => .pure _

theorem logs_mapM_roll (terms : List Term) :
    roller.Logs (terms.flatMap Term.requests) (terms.mapM (Term.roll roller))
      (terms.mapM (Term.roll roller.logged)) := by
  induction terms with
  | nil => exact .pure []
  | cons t terms ih =>
    have both := (t.logs_roll roller).bind fun n => ih.bind fun more => .pure (n :: more)
    rw [List.append_nil] at both
    rw [List.mapM_cons, List.mapM_cons, List.flatMap_cons]
    exact both

theorem Instance.logs_roll (i : Instance) :
    roller.Logs i.requests (i.roll roller) (i.roll roller.logged) := by
  have all := (logs_mapM_roll roller i.terms).bind fun ns => .pure (Amount.sum ns)
  rw [List.append_nil] at all
  exact all

end Logged

/-! ### The number of dice -/

/-- Counts a die that a roller can roll, and no other. -/
def rollable (size : Amount) : Int :=
  if size.toInt < wordLimit then 1 else 0

theorem asked_eq_sum (draws : List Draw) :
    asked draws = ((draws.map Draw.request).map Prod.fst).sum := by
  rw [List.map_map]
  rfl

theorem Term.sum_requests {t : Term} (positive : t.Positive) :
    ((t.requests.map Prod.fst).sum : Int) = t.diceSum rollable := by
  cases t with
  | constant c => rfl
  | dice d =>
    obtain ⟨some, sides⟩ := positive
    by_cases fits : d.size.toInt < wordLimit
    · have both : 0 < d.size.toInt ∧ d.size.toInt < wordLimit := ⟨by omega, fits⟩
      simp only [requests, diceSum, rollable, if_pos both, if_pos fits, List.map_singleton,
        List.sum_singleton]
      omega
    · simp [requests, diceSum, rollable, fits]

theorem Term.diceSum_rollable_le {t : Term} (positive : t.Positive) :
    t.diceSum rollable ≤ t.diceSum fun _ => 1 := by
  cases t with
  | constant c => exact Int.le_refl 0
  | dice d =>
    obtain ⟨some, -⟩ := positive
    by_cases fits : d.size.toInt < wordLimit
    · simp only [diceSum, rollable, if_pos fits]
      exact Int.le_refl _
    · simp only [diceSum, rollable, if_neg fits]
      omega

theorem sum_requests {terms : List Term} (positive : ∀ t ∈ terms, t.Positive) :
    (((terms.flatMap Term.requests).map Prod.fst).sum : Int) =
      (terms.map (Term.diceSum rollable)).sum := by
  induction terms with
  | nil => rfl
  | cons t terms ih =>
    obtain ⟨first, more⟩ := List.forall_mem_cons.mp positive
    rw [List.flatMap_cons, List.map_append, List.sum_append, Int.natCast_add,
      Term.sum_requests first, ih more, List.map_cons, List.sum_cons]

/-- Some dice are lost exactly if some have too many sides. -/
theorem sum_rollable_eq_iff {terms : List Term} (positive : ∀ t ∈ terms, t.Positive) :
    (terms.map (Term.diceSum rollable)).sum = (terms.map (Term.diceSum fun _ => 1)).sum ↔
      ∀ d : Dice, .dice d ∈ terms → d.size.toInt < wordLimit := by
  constructor
  · intro same d hd
    by_contra large
    have lost : (Term.dice d).diceSum rollable < (Term.dice d).diceSum fun _ => 1 := by
      obtain ⟨some, -⟩ := positive _ hd
      simp only [Term.diceSum, rollable, if_neg large]
      omega
    have le := fun t ht => Term.diceSum_rollable_le (positive t ht)
    have less := List.sum_lt_sum _ _ le ⟨_, hd, lost⟩
    omega
  · intro fits
    congr 1
    refine List.map_congr_left fun t ht => ?_
    cases t with
    | constant c => rfl
    | dice d => simp only [Term.diceSum, rollable, if_pos (fits d ht)]

/-- A roll of the damage of a text asks for all its dice with fewer than 2³² sides, term by
term, and for no others. These are all its dice exactly if no dice have more sides; the text
may well hold such dice. -/
theorem roll_of_ofText {data : RollData} {t : Text} {i : Instance}
    (h : Payload.ofText data t = .ok (.evaluated i)) {σ : Type} (roller : Roller σ) (s : σ) :
    ∃ log, i.roll roller.logged (s, []) = ((i.roll roller s).1, (i.roll roller s).2, log) ∧
      log.map Draw.request = i.requests ∧
      (asked log : Int) = i.diceSum rollable ∧
      ((asked log : Int) = i.diceSum (fun _ => 1) ↔
        ∀ d : Dice, .dice d ∈ i.terms → d.size.toInt < wordLimit) ∧
      (roller.Complete → rolled log = asked log) := by
  obtain ⟨node, v, parsed, value, damage⟩ := of_payload h
  have wellFormed : i.WellFormed :=
    (wellFormed_evaluate (Formula.written_of_parse parsed) value).toDamage damage
  have positive : ∀ t ∈ i.terms, t.Positive := fun t ht => wellFormed.positive ht
  obtain ⟨log, logged, answers, complete⟩ := i.logs_roll roller s []
  have total : (asked log : Int) = i.diceSum rollable := by
    rw [asked_eq_sum, answers]
    exact sum_requests positive
  refine ⟨log, logged, answers, total, ?_, complete⟩
  rw [total]
  exact sum_rollable_eq_iff positive

theorem parse_diceAndOversized :
    Formula.parse "2d6+1d4294967296".toList =
      .ok (.binary (.dice 2 6) .add (.dice 1 4294967296)) := by
  let dice : Formula.Token := ⟨.dice, 0, "2d6".toList⟩
  let sign : Formula.Token := ⟨.plus, 3, ['+']⟩
  let oversized : Formula.Token := ⟨.dice, 4, "1d4294967296".toList⟩
  have tokens : Formula.Token.ofText "2d6+1d4294967296".toList = [dice] ++ sign :: [oversized] := by
    decide +kernel
  have sides : Formula.WritesDice (['2'] ++ 'd' :: ['6']) 2 6 :=
    .intro (by decide) rfl rfl (by decide) (by decide)
  have sides' : Formula.WritesDice (['1'] ++ 'd' :: "4294967296".toList) 1 4294967296 :=
    .intro (by decide) rfl rfl (by decide) (by decide)
  have left : Formula.Derives .addition [dice] (.dice 2 6) :=
    .addition_of_value (.bare (.dice rfl sides))
  have right : Formula.Derives .product [oversized] (.dice 1 4294967296) :=
    .product_of_value (.bare (.dice rfl sides'))
  rw [Formula.parse_eq_ok_iff, tokens]
  exact .single (.binarySum left rfl (.inl rfl) right)

def diceAndOversized : Instance :=
  ⟨[⟨[.dice ⟨2, 6, 0⟩, .dice ⟨1, 4294967296, 0⟩], []⟩], false⟩

theorem ofText_diceAndOversized :
    Payload.ofText .empty "2d6+1d4294967296".toList = .ok (.evaluated diceAndOversized) := by
  rw [Payload.ofText, parse_diceAndOversized]
  rfl

/-- All dice that are rolled show 1. -/
theorem roll_diceAndOversized :
    Payload.ofText .empty "2d6+1d4294967296".toList = .ok (.evaluated diceAndOversized) ∧
      ∃ log, diceAndOversized.roll (StepRoller.roller 0).logged (1, []) = (2, 1, log) ∧
        log.map Draw.request = [(2, 6)] ∧ rolled log = 2 ∧
        diceAndOversized.diceSum (fun _ => 1) = 3 := by
  obtain ⟨log, logged, answers, total, -, complete⟩ :=
    roll_of_ofText ofText_diceAndOversized (StepRoller.roller 0) 1
  have two : (asked log : Int) = 2 := total
  have all : rolled log = asked log := complete (Roller.complete_step 0)
  exact ⟨ofText_diceAndOversized, log, logged, answers, by omega, rfl⟩

/-- A text may hold dice that no roll of its damage rolls. -/
theorem not_rolled_oversized :
    ¬ ∀ (data : RollData) (t : Text) (i : Instance),
      Payload.ofText data t = .ok (.evaluated i) →
      ∀ (σ : Type) (roller : Roller σ) (s : σ), roller.Complete →
        (rolled (i.roll roller.logged (s, [])).2.2 : Int) = i.diceSum fun _ => 1 := by
  intro h
  have same := h _ _ _ ofText_diceAndOversized _ _ 1 (Roller.complete_step 0)
  revert same
  decide

end RuleText.Damage
