import Mathlib.Data.List.Basic
import RuleText.Proofs.Damage.Conservation
import RuleText.Proofs.Decimal.Doubles

/-!
# The least and the greatest of integers

`min` and `max` compare integers after conversion to doubles. The double of an integer is the
nearest number with 53 digits, which keeps the order but not the difference of integers that are
next to each other. So in each order of the arguments `min` gives an argument with the same
double as the least one, and this is the least one in every order exactly if no other argument
shares its double (`evaluate_min_max`). Up to 2⁵³ integers are their own doubles, and then both
functions are exact.
-/

namespace RuleText.Damage

open Formula (Node)
open Decimal (nearest nearest_mono nearest_intCast Stands stands_ofInt)

/-! ### Picking by a key -/

section Picking

variable {α : Type} {key : α → ℚ} {a b : α} {more : List α}

/-- The second of two, if its key is less than that of the first, and else the first. -/
def pick (key : α → ℚ) (a b : α) : α :=
  if key b < key a then b else a

theorem pick_mem (key : α → ℚ) (a b : α) : pick key a b = a ∨ pick key a b = b := by
  unfold pick
  split_ifs
  · exact .inr rfl
  · exact .inl rfl

theorem key_pick_le : key (pick key a b) ≤ key a ∧ key (pick key a b) ≤ key b := by
  unfold pick
  split_ifs with below
  · exact ⟨below.le, le_rfl⟩
  · exact ⟨le_rfl, not_lt.mp below⟩

theorem foldl_pick_mem (key : α → ℚ) (a : α) (more : List α) :
    more.foldl (pick key) a ∈ a :: more := by
  induction more generalizing a with
  | nil => exact List.mem_cons_self
  | cons b more ih =>
    rcases List.mem_cons.mp (ih (pick key a b)) with picked | later
    · rw [List.foldl_cons, picked]
      rcases pick_mem key a b with first | second
      · simp [first]
      · simp [second]
    · exact List.mem_cons_of_mem _ (List.mem_cons_of_mem _ later)

/-- What is picked in the end has the least key. -/
theorem key_foldl_pick_le (key : α → ℚ) (a : α) (more : List α) :
    ∀ b ∈ a :: more, key (more.foldl (pick key) a) ≤ key b := by
  induction more generalizing a with
  | nil => simp
  | cons b more ih =>
    have picked := ih (pick key a b) _ List.mem_cons_self
    intro c hc
    rcases List.mem_cons.mp hc with rfl | hc
    · exact picked.trans key_pick_le.1
    rcases List.mem_cons.mp hc with rfl | hc
    · exact picked.trans key_pick_le.2
    · exact ih _ c (List.mem_cons_of_mem _ hc)

theorem exists_least (key : α → ℚ) (a : α) (more : List α) :
    ∃ least ∈ a :: more, ∀ b ∈ a :: more, key least ≤ key b :=
  ⟨_, foldl_pick_mem key a more, key_foldl_pick_le key a more⟩

/-- The first of all is picked if no key is less than its key. -/
theorem foldl_pick_eq_self (least : ∀ b ∈ more, key a ≤ key b) : more.foldl (pick key) a = a := by
  induction more with
  | nil => rfl
  | cons b more ih =>
    obtain ⟨first, rest⟩ := List.forall_mem_cons.mp least
    rw [List.foldl_cons, pick, if_neg first.not_gt, ih rest]

end Picking

/-! ### Integers as doubles -/

/-- The value of the double that an amount becomes. -/
def rounded (a : Amount) : ℚ :=
  nearest a.toInt

theorem rounded_mono {a b : Amount} (h : a.toInt ≤ b.toInt) : rounded a ≤ rounded b :=
  nearest_mono (Int.cast_le.mpr h)

theorem rounded_of_small {a : Amount} (small : |a.toInt| ≤ 2 ^ 53) : rounded a = a.toInt :=
  nearest_intCast small

theorem abs_toInt_lt (a : Amount) : |a.toInt| < 2 ^ 64 := by
  obtain ⟨low, high⟩ := Amount.fits_toInt a
  rw [Amount.least] at low
  rw [Amount.greatest] at high
  rw [abs_lt]
  omega

theorem stands_toFloat (a : Amount) : Stands (Number.int a).toFloat (rounded a) :=
  stands_ofInt (abs_toInt_lt a)

theorem min_int (a b : Amount) : Number.min (.int a) (.int b) = .int (pick rounded a b) := by
  rw [Number.min, pick, apply_ite Number.int]
  simp only [(stands_toFloat b).lt_iff (stands_toFloat a)]

theorem max_int (a b : Amount) :
    Number.max (.int a) (.int b) = .int (pick (fun a => -rounded a) a b) := by
  rw [Number.max, pick, apply_ite Number.int]
  simp only [(stands_toFloat a).lt_iff (stands_toFloat b), neg_lt_neg_iff]

/-! ### Calls -/

/-- The function takes integers and picks one by a key. -/
structure Picks (f : Function) (key : Amount → ℚ) : Prop where
  accepts (n : Nat) : f.accepts (n + 1) = true
  call (a : Amount) (more : List Amount) :
    f.call (.int a :: more.map .int) = .ok (.number (.int (more.foldl (pick key) a)))

theorem picks_min : Picks .min rounded where
  accepts n := by simp [Function.accepts]
  call a more := by
    rw [Function.call, List.foldl_map]
    exact congrArg (fun n => Except.ok (Value.number n)) (List.foldl_hom Number.int min_int)

theorem picks_max : Picks .max fun a => -rounded a where
  accepts n := by simp [Function.accepts]
  call a more := by
    rw [Function.call, List.foldl_map]
    exact congrArg (fun n => Except.ok (Value.number n)) (List.foldl_hom Number.int max_int)

section Calls

variable {data : RollData} {value : Node → Amount} {args : List Node} {f : Function}
variable {key : Amount → ℚ}

/-- All trees have integers as their values. -/
def AllInt (data : RollData) (value : Node → Amount) (args : List Node) : Prop :=
  ∀ node ∈ args, evaluate data node = .ok (.number (.int (value node)))

theorem evaluateNumbers_of_allInt (ints : AllInt data value args) :
    evaluateNumbers data f args = .ok (args.map fun node => .int (value node)) := by
  induction args with
  | nil => rfl
  | cons node more ih =>
    obtain ⟨first, rest⟩ := List.forall_mem_cons.mp ints
    rw [evaluateNumbers, first, ih rest]
    rfl

theorem evaluate_pick {node : Node} {more : List Node} (picks : Picks f key)
    (ints : AllInt data value (node :: more)) :
    evaluate data (.call f.name (node :: more)) =
      .ok (.number (.int ((more.map value).foldl (pick key) (value node)))) := by
  rw [evaluate_call (picks.accepts more.length), evaluateNumbers_of_allInt ints, ← picks.call,
    List.map_cons, List.map_map]
  rfl

/-- A call of the function on trees has an integer as its value. -/
def Gives (data : RollData) (f : Function) (args : List Node) (a : Amount) : Prop :=
  evaluate data (.call f.name args) = .ok (.number (.int a))

/-- In any order a member with the least key is picked. -/
theorem exists_gives_of_perm {best : Node} {args' : List Node} (picks : Picks f key)
    (ints : AllInt data value args) (best_mem : best ∈ args)
    (best_le : ∀ node ∈ args, key (value best) ≤ key (value node)) (perm : args'.Perm args) :
    ∃ node ∈ args, key (value node) = key (value best) ∧ Gives data f args' (value node) := by
  obtain ⟨first, more, rfl⟩ := List.exists_cons_of_ne_nil
    (List.ne_nil_of_mem (perm.mem_iff.mpr best_mem))
  have called := evaluate_pick picks fun node hn => ints node (perm.mem_iff.mp hn)
  have picked_mem := foldl_pick_mem key (value first) (more.map value)
  have picked_le := key_foldl_pick_le key (value first) (more.map value)
  rw [← List.map_cons] at picked_mem picked_le
  obtain ⟨node, hn, same⟩ := List.mem_map.mp picked_mem
  rw [← same] at called picked_le
  have node_mem := perm.mem_iff.mp hn
  refine ⟨node, node_mem, le_antisymm ?_ (best_le node node_mem), called⟩
  exact picked_le _ (List.mem_map_of_mem (perm.mem_iff.mpr best_mem))

/-- A member with the least key is picked if it comes first. -/
theorem gives_of_first {first : Node} {more : List Node} (picks : Picks f key)
    (ints : AllInt data value (first :: more))
    (first_le : ∀ node ∈ more, key (value first) ≤ key (value node)) :
    Gives data f (first :: more) (value first) := by
  have first_le' : ∀ a ∈ more.map value, key (value first) ≤ key a := by
    intro a ha
    obtain ⟨node, hn, rfl⟩ := List.mem_map.mp ha
    exact first_le node hn
  rw [Gives, evaluate_pick picks ints, foldl_pick_eq_self first_le']

/-- The result is the same in every order exactly if one integer only has the least key. -/
theorem forall_perm_gives_iff {best : Node} (picks : Picks f key) (ints : AllInt data value args)
    (best_mem : best ∈ args) (best_le : ∀ node ∈ args, key (value best) ≤ key (value node)) :
    (∀ args', args'.Perm args → Gives data f args' (value best)) ↔
      ∀ node ∈ args, key (value node) = key (value best) → value node = value best := by
  constructor
  · intro always node hn same
    obtain ⟨before, after, rfl⟩ := List.append_of_mem hn
    have perm : (node :: (before ++ after)).Perm (before ++ node :: after) := List.perm_middle.symm
    have first : Gives data f (node :: (before ++ after)) (value node) := by
      refine gives_of_first picks (fun node' hn' => ints node' (perm.mem_iff.mp hn')) ?_
      intro node' hn'
      rw [same]
      exact best_le node' (perm.mem_iff.mp (List.mem_cons_of_mem _ hn'))
    have results := first.symm.trans (always _ perm)
    exact Number.int.inj (Value.number.inj (Except.ok.inj results))
  · intro unique args' perm
    obtain ⟨node, hn, same, given⟩ := exists_gives_of_perm picks ints best_mem best_le perm
    rwa [unique node hn same] at given

/-- In every order `min` and `max` give arguments with the same doubles as the least and the
greatest one. They give the least and the greatest one itself in every order exactly if no
other integer among the arguments has the same double, and so they do where no argument is
beyond 2⁵³. -/
theorem evaluate_min_max (some_args : args ≠ []) (ints : AllInt data value args) :
    ∃ least ∈ args, ∃ greatest ∈ args,
      (∀ node ∈ args, (value least).toInt ≤ (value node).toInt ∧
        (value node).toInt ≤ (value greatest).toInt) ∧
      (∀ args', args'.Perm args →
        (∃ node ∈ args, rounded (value node) = rounded (value least) ∧
          Gives data .min args' (value node)) ∧
        ∃ node ∈ args, rounded (value node) = rounded (value greatest) ∧
          Gives data .max args' (value node)) ∧
      ((∀ args', args'.Perm args → Gives data .min args' (value least)) ↔
        ∀ node ∈ args, rounded (value node) = rounded (value least) → value node = value least) ∧
      ((∀ args', args'.Perm args → Gives data .max args' (value greatest)) ↔
        ∀ node ∈ args, rounded (value node) = rounded (value greatest) →
          value node = value greatest) ∧
      ((∀ node ∈ args, |(value node).toInt| ≤ 2 ^ 53) → ∀ args', args'.Perm args →
        Gives data .min args' (value least) ∧ Gives data .max args' (value greatest)) := by
  obtain ⟨first, more, rfl⟩ := List.exists_cons_of_ne_nil some_args
  obtain ⟨least, least_mem, least_le⟩ :=
    exists_least (fun node => ((value node).toInt : ℚ)) first more
  obtain ⟨greatest, greatest_mem, le_greatest⟩ :=
    exists_least (fun node => (-(value node).toInt : ℚ)) first more
  have least_le' : ∀ node ∈ first :: more, (value least).toInt ≤ (value node).toInt :=
    fun node hn => Int.cast_le.mp (least_le node hn)
  have le_greatest' : ∀ node ∈ first :: more, (value node).toInt ≤ (value greatest).toInt :=
    fun node hn => Int.cast_le.mp (neg_le_neg_iff.mp (le_greatest node hn))
  have least_key : ∀ node ∈ first :: more, rounded (value least) ≤ rounded (value node) :=
    fun node hn => rounded_mono (least_le' node hn)
  have greatest_key : ∀ node ∈ first :: more, -rounded (value greatest) ≤ -rounded (value node) :=
    fun node hn => neg_le_neg (rounded_mono (le_greatest' node hn))
  have iff_min := forall_perm_gives_iff picks_min ints least_mem least_key
  have iff_max := forall_perm_gives_iff picks_max ints greatest_mem greatest_key
  simp only [neg_inj] at iff_max
  refine ⟨least, least_mem, greatest, greatest_mem,
    fun node hn => ⟨least_le' node hn, le_greatest' node hn⟩, ?_, iff_min, iff_max, ?_⟩
  · intro args' perm
    have min := exists_gives_of_perm picks_min ints least_mem least_key perm
    have max := exists_gives_of_perm picks_max ints greatest_mem greatest_key perm
    simp only [neg_inj] at max
    exact ⟨min, max⟩
  · intro small args' perm
    have injective : ∀ node ∈ first :: more, ∀ node' ∈ first :: more,
        rounded (value node) = rounded (value node') → value node = value node' := by
      intro node hn node' hn' same
      rw [rounded_of_small (small node hn), rounded_of_small (small node' hn'),
        Int.cast_inj] at same
      exact Int64.toInt_inj.mp same
    exact ⟨iff_min.mpr (fun node hn => injective node hn least least_mem) args' perm,
      iff_max.mpr (fun node hn => injective node hn greatest greatest_mem) args' perm⟩

end Calls

/-- The number at `x`, a negated number and the last integer up to which all are exact. -/
def threeIntegers : List Node :=
  [.reference "x".toList, .negate (.integer 7), .integer 9007199254740992]

/-- The values of the three integers. -/
def valueOfThree : Node → Amount
  | .reference _ => 5
  | .negate (.integer n) => -n
  | .integer n => n
  | _ => 0

theorem allInt_threeIntegers : AllInt five valueOfThree threeIntegers := by
  have x : evaluate five (.reference "x".toList) = .ok (.number (.int 5)) := by
    rw [evaluate, reference, lookup_five]
    rfl
  simp only [AllInt, threeIntegers, List.forall_mem_cons]
  exact ⟨x, rfl, rfl, List.forall_mem_nil _⟩

theorem evaluate_threeIntegers :
    threeIntegers ≠ [] ∧ AllInt five valueOfThree threeIntegers ∧
      Gives five .min threeIntegers.reverse (-7) ∧
      Gives five .max threeIntegers.reverse 9007199254740992 := by
  have some_args : threeIntegers ≠ [] := List.cons_ne_nil _ _
  obtain ⟨least, least_mem, greatest, greatest_mem, bounds, -, -, -, exact⟩ :=
    evaluate_min_max some_args allInt_threeIntegers
  have small : ∀ node ∈ threeIntegers, |(valueOfThree node).toInt| ≤ 2 ^ 53 := by
    simp only [threeIntegers, List.forall_mem_cons]
    exact ⟨by decide, by decide, by decide, List.forall_mem_nil _⟩
  obtain ⟨min, max⟩ := exact small _ (List.reverse_perm _)
  simp only [threeIntegers, List.forall_mem_cons] at bounds
  obtain ⟨⟨-, five_le⟩, ⟨le_neg, -⟩, ⟨-, two_pow_le⟩, -⟩ := bounds
  have least_eq : valueOfThree least = -7 := by
    rcases List.mem_cons.mp least_mem with rfl | least_mem
    · exact absurd le_neg (by decide)
    rcases List.mem_cons.mp least_mem with rfl | least_mem
    · rfl
    · obtain rfl := List.mem_singleton.mp least_mem
      exact absurd le_neg (by decide)
  have greatest_eq : valueOfThree greatest = 9007199254740992 := by
    rcases List.mem_cons.mp greatest_mem with rfl | greatest_mem
    · exact absurd two_pow_le (by decide)
    rcases List.mem_cons.mp greatest_mem with rfl | greatest_mem
    · exact absurd two_pow_le (by decide)
    · obtain rfl := List.mem_singleton.mp greatest_mem
      rfl
  rw [least_eq] at min
  rw [greatest_eq] at max
  exact ⟨some_args, allInt_threeIntegers, min, max⟩

/-- An integer that is no double, and the double next to it. -/
def neighbours : List Node :=
  [.integer 9007199254740993, .integer 9007199254740992]

/-- The values of two integers. -/
def valueOfInteger : Node → Amount
  | .integer n => n
  | _ => 0

/-- The first of two neighbours with the same double is taken for the least. -/
theorem not_least_neighbours :
    ¬ ∀ (data : RollData) (value : Node → Amount) (args : List Node), args ≠ [] →
      AllInt data value args →
      ∃ least ∈ args, (∀ node ∈ args, (value least).toInt ≤ (value node).toInt) ∧
        Gives data .min args (value least) := by
  intro exact
  have tie : ¬ (Number.int 9007199254740992).toFloat < (Number.int 9007199254740993).toFloat := by
    decide +kernel
  have first : Gives .empty .min neighbours 9007199254740993 := by
    rw [Gives, neighbours, evaluate_call rfl]
    show Except.ok (Value.number (Number.min (.int 9007199254740993) (.int 9007199254740992))) = _
    rw [Number.min, if_neg tie]
  have ints : AllInt .empty valueOfInteger neighbours := by
    simp only [AllInt, neighbours, List.forall_mem_cons]
    exact ⟨rfl, rfl, List.forall_mem_nil _⟩
  obtain ⟨least, least_mem, least_le, given⟩ :=
    exact .empty valueOfInteger neighbours (List.cons_ne_nil _ _) ints
  have least_eq : valueOfInteger least = 9007199254740993 :=
    (Number.int.inj (Value.number.inj (Except.ok.inj (first.symm.trans given)))).symm
  have le := least_le (.integer 9007199254740992) (by simp [neighbours])
  rw [least_eq] at le
  exact absurd le (by decide)

end RuleText.Damage
