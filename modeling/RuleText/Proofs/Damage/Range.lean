import Mathlib.Algebra.Order.Group.Nat
import RuleText.Proofs.Damage.Average
import RuleText.Proofs.Damage.Rolling

/-!
# The range of a roll

Every die shows at least 1 and at most the number of its sides. What all dice show is therefore
between the number of dice and the sum of their sides, and so is what they count in an average.
If the products of counts and sides, the modifiers and the constants are small enough together,
none of the saturating sums is saturated, although modifiers may be negative: a roll is what was
drawn and the flat part, and it is in the range of the instance
(`roll_and_average_in_range`).
-/

namespace RuleText.Damage

/-! ### The range -/

namespace Term

/-- The least value: all dice show 1. -/
def low : Term → Int
  | constant c => c.toInt
  | dice d => d.count.toInt + d.modifier.toInt

/-- The greatest value: all dice show their number of sides. -/
def high : Term → Int
  | constant c => c.toInt
  | dice d => d.count.toInt * d.size.toInt + d.modifier.toInt

/-- The absolute values of the products, constants and modifiers that a roll may add. -/
def reach : Term → Nat
  | constant c => c.toInt.natAbs
  | dice d => (d.count.toInt * d.size.toInt).natAbs + d.modifier.toInt.natAbs

/-- Some dice whose number of sides a roller can roll, or a constant. -/
def Rollable : Term → Prop
  | constant _ => True
  | dice d => 1 ≤ d.count.toInt ∧ 1 ≤ d.size.toInt ∧ d.size.toInt < wordLimit

instance : DecidablePred Rollable
  | constant _ => inferInstanceAs (Decidable True)
  | dice _ => inferInstanceAs (Decidable (_ ∧ _))

theorem low_eq (t : Term) : t.low = t.diceSum (fun _ => 1) + t.flat := by
  cases t with
  | constant c => exact (Int.zero_add _).symm
  | dice d => simp only [low, diceSum, flat, Int.mul_one]

theorem high_eq (t : Term) : t.high = t.diceSum Int64.toInt + t.flat := by
  cases t with
  | constant c => exact (Int.zero_add _).symm
  | dice d => rfl

end Term

namespace Instance

/-- The least value that a roll can have. -/
def low (i : Instance) : Int :=
  (i.terms.map Term.low).sum

/-- The greatest value that a roll can have. -/
def high (i : Instance) : Int :=
  (i.terms.map Term.high).sum

/-- The reach of all terms. -/
def reach (i : Instance) : Nat :=
  (i.terms.map Term.reach).sum

theorem low_eq (i : Instance) : i.low = i.diceSum (fun _ => 1) + i.flat := by
  rw [low, List.map_congr_left fun t _ => t.low_eq]
  exact List.sum_map_add

theorem high_eq (i : Instance) : i.high = i.diceSum Int64.toInt + i.flat := by
  rw [high, List.map_congr_left fun t _ => t.high_eq]
  exact List.sum_map_add

end Instance

/-! ### Averages -/

theorem dieAverage_range {size : Amount} (some : 1 ≤ size.toInt) :
    1 ≤ dieAverage size ∧ dieAverage size ≤ size.toInt := by
  unfold dieAverage
  omega

/-- Dice that count more are more. -/
theorem Instance.diceSum_mono {i : Instance} {weight weight' : Amount → Int}
    (h : ∀ d, .dice d ∈ i.terms → 0 ≤ d.count.toInt ∧ weight d.size ≤ weight' d.size) :
    i.diceSum weight ≤ i.diceSum weight' := by
  apply List.sum_le_sum
  intro t ht
  cases t with
  | constant c => exact Int.le_refl 0
  | dice d =>
    obtain ⟨some, le⟩ := h d ht
    exact Int.mul_le_mul_of_nonneg_left le some

theorem Term.bulk_le_reach {t : Term} (h : t.Rollable) : t.bulk ≤ t.reach := by
  cases t with
  | constant c => exact Nat.le_refl _
  | dice d =>
    obtain ⟨some, sides, -⟩ := h
    obtain ⟨least, most⟩ := dieAverage_range sides
    have product : d.count.toInt * dieAverage d.size ≤ d.count.toInt * d.size.toInt :=
      Int.mul_le_mul_of_nonneg_left most (by omega)
    have nonneg : 0 ≤ d.count.toInt * dieAverage d.size := Int.mul_nonneg (by omega) (by omega)
    show (d.count.toInt * dieAverage d.size).natAbs + _ ≤ (d.count.toInt * d.size.toInt).natAbs + _
    omega

theorem Instance.bulk_eq (i : Instance) : i.bulk = (i.terms.map Term.bulk).sum := by
  rw [terms, List.map_flatMap, List.flatMap_def, List.sum_flatten, List.map_map]
  rfl

theorem Instance.bulk_le_reach {i : Instance} (h : ∀ t ∈ i.terms, t.Rollable) :
    i.bulk ≤ i.reach := by
  rw [bulk_eq]
  exact List.sum_le_sum fun t ht => Term.bulk_le_reach (h t ht)

theorem average_in_range {i : Instance} (h : ∀ t ∈ i.terms, t.Rollable)
    (small : (i.reach : Int) ≤ Amount.greatest) :
    i.low ≤ i.average.toInt ∧ i.average.toInt ≤ i.high := by
  have sides : ∀ d, .dice d ∈ i.terms → 1 ≤ d.size.toInt ∧ d.size.toInt < Amount.greatest := by
    intro d hd
    obtain ⟨-, some, below⟩ := h _ hd
    unfold wordLimit at below
    unfold Amount.greatest
    omega
  have bulk := Instance.bulk_le_reach h
  have average : i.average.toInt = i.diceSum dieAverage + i.flat :=
    (accurate_instance sides).exact (by omega)
  have least : i.diceSum (fun _ => 1) ≤ i.diceSum dieAverage := by
    apply Instance.diceSum_mono
    intro d hd
    obtain ⟨some, sides, -⟩ := h _ hd
    exact ⟨by omega, (dieAverage_range sides).1⟩
  have most : i.diceSum dieAverage ≤ i.diceSum Int64.toInt := by
    apply Instance.diceSum_mono
    intro d hd
    obtain ⟨some, sides, -⟩ := h _ hd
    exact ⟨by omega, (dieAverage_range sides).2⟩
  rw [average, i.low_eq, i.high_eq]
  omega

/-! ### Fair rollers -/

/-- Of dice that it can roll, the roller rolls as many as it is asked for, and each shows a number
from 1 to the number of its sides. -/
def Roller.Fair {σ : Type} (roller : Roller σ) : Prop :=
  ∀ count sides s, 1 ≤ sides → sides < wordLimit →
    (roller.rolls count sides s).1.length = count ∧
    ∀ n ∈ (roller.rolls count sides s).1, 1 ≤ n ∧ n ≤ sides

namespace Roller

theorem forall_rollEach {σ : Type} {die : StateM σ Nat} {p : Nat → Prop} (h : ∀ s, p (die s).1)
    (count : Nat) (s : σ) : ∀ n ∈ (rollEach die count s).1, p n := by
  induction count generalizing s with
  | zero => exact List.forall_mem_nil p
  | succ count ih => exact List.forall_mem_cons.mpr ⟨h s, ih (die s).2⟩

/-- Counting up starts again behind the number of sides. -/
theorem fair_step (step : Nat) : (StepRoller.roller step).Fair := by
  intro count sides s some _
  refine ⟨length_rollEach _ count s, forall_rollEach (fun current => ?_) count s⟩
  exact ⟨Nat.succ_pos _, Nat.mod_lt (current - 1) some⟩

theorem next_lt (source : WordSource) : (WordSource.next source).1 < wordLimit :=
  UInt32.toNat_lt _

theorem die_succ (sides zone tries : Nat) (source : WordSource) :
    WordSource.die sides zone (tries + 1) source =
      if (WordSource.next source).1 * sides % wordLimit ≤ zone then
        (1 + (WordSource.next source).1 * sides / wordLimit, (WordSource.next source).2)
      else WordSource.die sides zone tries (WordSource.next source).2 := by
  rw [WordSource.die]
  show (ite ((WordSource.next source).1 * sides % wordLimit ≤ zone) _ _ : StateM WordSource Nat)
    (WordSource.next source).2 = _
  split_ifs <;> rfl

/-- The high half of the product with a word is less than the number of sides. -/
theorem die_range {sides : Nat} (some : 1 ≤ sides) (zone tries : Nat) (source : WordSource) :
    1 ≤ (WordSource.die sides zone tries source).1 ∧
      (WordSource.die sides zone tries source).1 ≤ sides := by
  induction tries generalizing source with
  | zero => exact ⟨Nat.le_refl 1, some⟩
  | succ tries ih =>
    have high : (WordSource.next source).1 * sides / wordLimit < sides := by
      rw [Nat.div_lt_iff_lt_mul (by decide), Nat.mul_comm]
      exact Nat.mul_lt_mul_of_pos_left (next_lt source) some
    rw [die_succ]
    split_ifs
    · exact ⟨Nat.le_add_right 1 _, by omega⟩
    · exact ih _

/-- A die that is given up shows 1. -/
theorem fair_words : WordSource.roller.Fair :=
  fun count _ s some _ => ⟨length_rollEach _ count s,
    forall_rollEach (fun source => die_range some _ _ source) count s⟩

end Roller

/-! ### Rolls -/

/-- The sum of what the dice have shown. -/
def drawn (draws : List Draw) : Nat :=
  (draws.map fun draw => draw.results.sum).sum

/-- The dice are `count` in number, and what they show is at least that and at most `most`. -/
structure Shown (draws : List Draw) (count most : Int) : Prop where
  number : (rolled draws : Int) = count
  least : count ≤ drawn draws
  greatest : (drawn draws : Int) ≤ most

namespace Shown

variable {draws draws' : List Draw} {count count' most most' : Int}

theorem nil : Shown [] 0 0 := ⟨rfl, Int.le_refl 0, Int.le_refl 0⟩

theorem append (h : Shown draws count most) (h' : Shown draws' count' most') :
    Shown (draws ++ draws') (count + count') (most + most') := by
  obtain ⟨number, least, greatest⟩ := h
  obtain ⟨number', least', greatest'⟩ := h'
  simp only [rolled, drawn] at *
  constructor
  all_goals
    simp only [rolled, drawn, List.map_append, List.sum_append]
    omega

theorem single {draw : Draw} (complete : draw.results.length = draw.count)
    (range : ∀ n ∈ draw.results, 1 ≤ n ∧ n ≤ draw.sides) :
    Shown [draw] draw.count (draw.count * draw.sides : Nat) := by
  have least := List.card_nsmul_le_sum draw.results 1 fun n hn => (range n hn).1
  have greatest := List.sum_le_card_nsmul draw.results draw.sides fun n hn => (range n hn).2
  rw [complete, Nat.nsmul_eq_mul] at least greatest
  constructor
  all_goals
    simp only [rolled, drawn, List.map_singleton, List.sum_singleton]
    omega

end Shown

/-- The dice that a computation adds to the log and its result are in the relation. -/
def Records {σ α : Type} (run : StateM (σ × List Draw) α) (holds : List Draw → α → Prop) : Prop :=
  ∀ s log, ∃ draws, (run (s, log)).2.2 = log ++ draws ∧ holds draws (run (s, log)).1

namespace Records

variable {σ α β : Type} {run : StateM (σ × List Draw) α} {holds : List Draw → α → Prop}

theorem pure {a : α} (h : holds [] a) : Records (pure a : StateM (σ × List Draw) α) holds :=
  fun _ log => ⟨[], (List.append_nil log).symm, h⟩

theorem bind {f : α → StateM (σ × List Draw) β} {holds' : List Draw → β → Prop}
    (first : Records run holds)
    (next : ∀ draws a, holds draws a → Records (f a) fun draws' => holds' (draws ++ draws')) :
    Records (run >>= f) holds' := by
  intro s log
  obtain ⟨draws, done, h⟩ := first s log
  obtain ⟨draws', done', h'⟩ := next draws _ h (run (s, log)).2.1 (run (s, log)).2.2
  refine ⟨draws ++ draws', ?_, h'⟩
  rw [← List.append_assoc, ← done]
  exact done'

end Records

section Fair

variable {σ : Type} {roller : Roller σ}

theorem Roller.Fair.records_rolls (fair : roller.Fair) (count sides : Nat) (some : 1 ≤ sides)
    (below : sides < wordLimit) :
    Records (roller.logged.rolls count sides) fun draws results =>
      draws = [⟨count, sides, results⟩] ∧ Shown draws count (count * sides : Nat) ∧
        ∀ n ∈ results, n ≤ sides := by
  intro s log
  obtain ⟨complete, range⟩ := fair count sides s some below
  exact ⟨[⟨count, sides, (roller.rolls count sides s).1⟩], rfl, rfl, .single complete range,
    fun n hn => (range n hn).2⟩

/-- Results of dice add up. -/
theorem accurate_results {results : List Nat} {sides : Nat} (below : sides < wordLimit)
    (range : ∀ n ∈ results, n ≤ sides) :
    Accurate (Amount.sum (results.map fun (n : Nat) => Int64.ofInt n)) results.sum results.sum := by
  apply AddUp.sum
  induction results with
  | nil => exact .nil
  | cons n ns ih =>
    obtain ⟨le, more⟩ := List.forall_mem_cons.mp range
    have first : Accurate (Int64.ofInt (n : Int)) (n : Int) n := by
      unfold wordLimit at below
      refine ⟨by omega, fun _ => Amount.toInt_ofInt_of_fits ?_⟩
      unfold Amount.Fits Amount.least Amount.greatest
      omega
    rw [List.map_cons, List.sum_cons, Int.natCast_add]
    exact .cons first (ih more)

/-- A term comes to what its dice show and its flat part. -/
theorem Term.records_roll (fair : roller.Fair) {t : Term} (h : t.Rollable) :
    Records (t.roll roller.logged) fun draws n =>
      Shown draws (t.diceSum fun _ => 1) (t.diceSum Int64.toInt) ∧
        Accurate n (drawn draws + t.flat) t.reach := by
  cases t with
  | constant c =>
    refine .pure ⟨.nil, ?_⟩
    show Accurate c (0 + c.toInt) c.toInt.natAbs
    rw [Int.zero_add]
    exact accurate_self c
  | dice d =>
    obtain ⟨some, sides, below⟩ := h
    have rolls := fair.records_rolls d.count.toInt.toNat d.size.toInt.toNat (by omega)
      (by omega)
    have known : d.sides? = .some d.size.toInt.toNat := if_pos ⟨by omega, below⟩
    have product : (d.count.toInt.toNat * d.size.toInt.toNat : Nat) =
        d.count.toInt * d.size.toInt := by
      rw [Int.natCast_mul, Int.toNat_of_nonneg (by omega), Int.toNat_of_nonneg (by omega)]
    simp only [Term.roll, Dice.roll, known]
    refine rolls.bind fun draws results holds => .pure ?_
    obtain ⟨rfl, shown, range⟩ := holds
    rw [List.append_nil]
    have number : (d.count.toInt.toNat : Int) = d.count.toInt * 1 := by omega
    rw [number, product] at shown
    have most : results.sum ≤ (d.count.toInt * d.size.toInt).natAbs := by
      have greatest := shown.greatest
      simp only [drawn, List.map_singleton, List.sum_singleton] at greatest
      omega
    refine ⟨shown, ?_⟩
    have sum := (accurate_results (by omega) range).mono most
    exact sum.add (accurate_self d.modifier)

/-- The terms are rolled one after the other, each with its own dice. -/
theorem records_mapM_roll (fair : roller.Fair) {terms : List Term}
    (h : ∀ t ∈ terms, t.Rollable) :
    Records (terms.mapM (Term.roll roller.logged)) fun draws ns =>
      Shown draws (terms.map (Term.diceSum fun _ => 1)).sum
        (terms.map (Term.diceSum Int64.toInt)).sum ∧
      AddUp ns (drawn draws + (terms.map Term.flat).sum) (terms.map Term.reach).sum := by
  induction terms with
  | nil => exact .pure ⟨.nil, .nil⟩
  | cons t terms ih =>
    obtain ⟨first, more⟩ := List.forall_mem_cons.mp h
    rw [List.mapM_cons]
    refine (Term.records_roll fair first).bind fun draws n ⟨shown, accurate⟩ => ?_
    refine (ih more).bind fun draws' ns ⟨shown', addUp⟩ => .pure ?_
    have both : (drawn (draws ++ draws') : Int) = drawn draws + drawn draws' := by
      simp only [drawn, List.map_append, List.sum_append]
      omega
    have split : (drawn draws + t.flat : Int) + (drawn draws' + (terms.map Term.flat).sum) =
        drawn (draws ++ draws') + ((t :: terms).map Term.flat).sum := by
      rw [both, List.map_cons, List.sum_cons]
      omega
    rw [List.append_nil, ← split]
    exact ⟨shown.append shown', .cons accurate addUp⟩

theorem Instance.records_roll (fair : roller.Fair) {i : Instance} (h : ∀ t ∈ i.terms, t.Rollable) :
    Records (i.roll roller.logged) fun draws n =>
      Shown draws (i.diceSum fun _ => 1) (i.diceSum Int64.toInt) ∧
        Accurate n (drawn draws + i.flat) i.reach := by
  refine (records_mapM_roll fair h).bind fun draws ns ⟨shown, addUp⟩ => .pure ?_
  rw [List.append_nil]
  exact ⟨shown, addUp.sum⟩

end Fair

/-- Rolls and averages stay within the dice.

The roller is asked for the dice of all terms in their order and draws so many. The roll is the
sum of what was drawn and of all modifiers and constants, and so it is in the range of the
instance. The average is in the range too. -/
theorem roll_and_average_in_range {i : Instance} (rollable : ∀ t ∈ i.terms, t.Rollable)
    (small : (i.reach : Int) ≤ Amount.greatest) {σ : Type} {roller : Roller σ}
    (fair : roller.Fair) (s : σ) :
    ∃ log, i.roll roller.logged (s, []) = ((i.roll roller s).1, (i.roll roller s).2, log) ∧
      log.map Draw.request = i.requests ∧
      (rolled log : Int) = i.diceSum (fun _ => 1) ∧
      (i.roll roller s).1.toInt = drawn log + i.flat ∧
      i.low ≤ (i.roll roller s).1.toInt ∧ (i.roll roller s).1.toInt ≤ i.high ∧
      i.low ≤ i.average.toInt ∧ i.average.toInt ≤ i.high := by
  obtain ⟨log, logged, requests, -⟩ := i.logs_roll roller s []
  obtain ⟨draws, same, shown, accurate⟩ := i.records_roll fair rollable s []
  rw [logged] at same accurate
  obtain rfl : log = draws := same
  have value : (i.roll roller s).1.toInt = drawn log + i.flat := accurate.exact small
  refine ⟨log, logged, requests, shown.number, value, ?_, ?_, average_in_range rollable small⟩
  · rw [value, i.low_eq]
    have least := shown.least
    omega
  · rw [value, i.high_eq]
    have greatest := shown.greatest
    omega

/-- Two dice with a negative modifier in one group, a die and a constant in another. -/
def fireAndColdDice : Instance :=
  ⟨[⟨[.dice ⟨2, 6, -3⟩], ["fire".toList]⟩, ⟨[.dice ⟨1, 4, 0⟩, .constant 5], ["cold".toList]⟩],
    false⟩

/-- The dice show 1, 2 and 3. -/
theorem range_fireAndColdDice :
    (∀ t ∈ fireAndColdDice.terms, t.Rollable) ∧ (fireAndColdDice.reach : Int) ≤ Amount.greatest ∧
      (StepRoller.roller 1).Fair ∧
      ∃ log, fireAndColdDice.roll (StepRoller.roller 1).logged (1, []) = (8, 4, log) ∧
        log.map Draw.request = [(2, 6), (1, 4)] ∧ rolled log = 3 ∧ (8 : Int) = drawn log + 2 ∧
        fireAndColdDice.low = 5 ∧ fireAndColdDice.average = 10 ∧ fireAndColdDice.high = 18 := by
  have rollable : ∀ t ∈ fireAndColdDice.terms, t.Rollable := by decide
  have small : (fireAndColdDice.reach : Int) ≤ Amount.greatest := by decide
  have fair := Roller.fair_step 1
  obtain ⟨log, logged, requests, number, value, -⟩ :=
    roll_and_average_in_range rollable small fair 1
  refine ⟨rollable, small, fair, log, logged, requests, ?_, value, rfl, rfl, rfl⟩
  exact Int.natCast_inj.mp number

end RuleText.Damage
