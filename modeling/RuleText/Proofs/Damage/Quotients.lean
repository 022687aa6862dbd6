import RuleText.Proofs.Damage.Extremes
import RuleText.Proofs.Damage.Scaling
import RuleText.Proofs.Damage.Tagging

/-!
# Quotients of numbers and of damage

An integer may be divided as a plain number or, with tags on it, as damage. Damage is divided
exactly and rounded down. A plain quotient without remainder is exact too, but any other is a
double, which is rounded down where it becomes damage. Both ways come to the same constant
where the dividend is less than 2⁵³ or there is no remainder (`quotients_agree`).
-/

namespace RuleText.Damage

open Formula (Node)
open Decimal (nearest nearest_mono nearest_two_pow nearest_ne_zero abs_nearest
  moderate_nearest_intCast floor_nearest_div Stands)

variable {a b : Amount}

/-! ### Damage -/

/-- Dividing damage that is a constant divides the constant. -/
theorem apply_div_constant {q : Amount} (nonzero : b ≠ 0) (names : List Text)
    (quotient : (Term.constant a).shrink b = .ok (.constant q)) :
    ((Instance.ofTerm (.constant a)).addTags names).apply .div b =
      ⟨.ok (), (Instance.ofTerm (.constant q)).addTags names⟩ := by
  have applied : (Term.constant a).apply .div b = .ok (.constant q) := quotient
  simp [Instance.apply, nonzero, Instance.terms, Instance.addTags, Instance.ofTerm, Group.ofTerm,
    Term.isDice, Instance.rescale, Attempt.each, applied, Attempt.ofExcept]

theorem shrink_constant {q : Amount} (nonzero : b ≠ 0)
    (value : q.toInt = ⌊(a.toInt / b.toInt : ℚ)⌋) :
    (Term.constant a).shrink b = .ok (.constant q) := by
  rw [Term.shrink, floorDiv, if_neg nonzero, Amount.floorDiv?, fdiv_eq_floor, ← value,
    Amount.fit?_eq_some_iff.mpr rfl]
  rfl

/-! ### Plain numbers -/

/-- The integer that a plain quotient becomes as damage. -/
def plainQuotient (a b : Amount) : Int :=
  if b.toInt ∣ a.toInt then ⌊(a.toInt / b.toInt : ℚ)⌋ else ⌊nearest (rounded a / rounded b)⌋

theorem toInt_ne_zero (nonzero : b ≠ 0) : b.toInt ≠ 0 :=
  fun zero => nonzero (Int64.toInt_inj.mp zero)

theorem div_int_of_dvd {q : Amount} (nonzero : b ≠ 0) (divides : b.toInt ∣ a.toInt)
    (value : q.toInt = ⌊(a.toInt / b.toInt : ℚ)⌋) :
    (Number.int a).div (.int b) = .ok (.int q) := by
  have no_rest : a.toInt.tmod b.toInt = 0 := Int.dvd_iff_tmod_eq_zero.mp divides
  have quotient : Amount.fit? (a.toInt.tdiv b.toInt) = some q := by
    rw [Amount.fit?_eq_some_iff, value, ← fdiv_eq_floor, Int.tdiv_eq_ediv_of_dvd divides,
      Int.fdiv_eq_ediv_of_dvd divides]
  simp [Number.div, Number.isZero, nonzero, no_rest, quotient]

theorem div_int_of_not_dvd (nonzero : b ≠ 0) (rest : ¬ b.toInt ∣ a.toInt) :
    (Number.int a).div (.int b) =
      .ok (.float ((Number.int a).toFloat / (Number.int b).toFloat)) := by
  have some_rest : ¬ a.toInt.tmod b.toInt = 0 := mt Int.dvd_iff_tmod_eq_zero.mpr rest
  simp [Number.div, Number.isZero, nonzero, some_rest]

/-- A quotient with a remainder is far inside the range. -/
theorem fits_floor_nearest (nonzero : b ≠ 0) (rest : ¬ b.toInt ∣ a.toInt) :
    Amount.Fits ⌊nearest (rounded a / rounded b)⌋ := by
  obtain ⟨low, high⟩ := Amount.fits_toInt a
  have dividend : |(a.toInt : ℚ)| ≤ 2 ^ 63 := by
    rw [abs_le]
    rw [Amount.least] at low
    rw [Amount.greatest] at high
    exact_mod_cast (⟨by omega, by omega⟩ : -2 ^ 63 ≤ a.toInt ∧ a.toInt ≤ 2 ^ 63)
  have divisor : (2 ^ 1 : ℚ) ≤ |(b.toInt : ℚ)| := by
    have not_zero := toInt_ne_zero nonzero
    have not_unit : ¬ b.toInt.natAbs = 1 := fun unit => rest (Int.natAbs_dvd.mp (by simp [unit]))
    have two_le : 2 ≤ |b.toInt| := by
      rw [Int.abs_eq_natAbs]
      omega
    exact_mod_cast two_le
  have dividend' : |rounded a| ≤ 2 ^ 63 := by
    rw [rounded, abs_nearest, ← nearest_two_pow]
    exact nearest_mono dividend
  have divisor' : 2 ^ 1 ≤ |rounded b| := by
    rw [rounded, abs_nearest, ← nearest_two_pow]
    exact nearest_mono divisor
  have quotient : |nearest (rounded a / rounded b)| ≤ 2 ^ 62 := by
    rw [abs_nearest, ← nearest_two_pow, abs_div]
    refine nearest_mono ((div_le_div₀ (by norm_num) dividend' (by norm_num) divisor').trans_eq ?_)
    norm_num
  obtain ⟨above, below⟩ := abs_le.mp quotient
  have above' : -2 ^ 62 ≤ ⌊nearest (rounded a / rounded b)⌋ :=
    Int.le_floor.mpr (by exact_mod_cast above)
  have below' : ⌊nearest (rounded a / rounded b)⌋ ≤ 2 ^ 62 :=
    Int.cast_le.mp ((Int.floor_le _).trans (by exact_mod_cast below))
  rw [Amount.Fits, Amount.least, Amount.greatest]
  omega

theorem stands_div (nonzero : b ≠ 0) (rest : ¬ b.toInt ∣ a.toInt) :
    Stands ((Number.int a).toFloat / (Number.int b).toFloat) (nearest (rounded a / rounded b)) := by
  have some_a : (a.toInt : ℚ) ≠ 0 := by
    rw [Int.cast_ne_zero]
    rintro zero
    exact rest (zero ▸ Int.dvd_zero _)
  have some_b : (b.toInt : ℚ) ≠ 0 := Int.cast_ne_zero.mpr (toInt_ne_zero nonzero)
  exact (stands_toFloat a).div (stands_toFloat b) (nearest_ne_zero some_a) (nearest_ne_zero some_b)
    (moderate_nearest_intCast (abs_toInt_lt a)) (moderate_nearest_intCast (abs_toInt_lt b))

theorem exists_div_int (nonzero : b ≠ 0) (fits : Amount.Fits ⌊(a.toInt / b.toInt : ℚ)⌋) :
    ∃ n : Number, (Number.int a).div (.int b) = .ok n ∧ n.toAmount.toInt = plainQuotient a b := by
  unfold plainQuotient
  by_cases divides : b.toInt ∣ a.toInt
  · have value := Amount.toInt_ofInt_of_fits fits
    refine ⟨_, div_int_of_dvd nonzero divides value, ?_⟩
    rw [if_pos divides]
    exact value
  · refine ⟨_, div_int_of_not_dvd nonzero divides, ?_⟩
    rw [if_neg divides, Number.toAmount, (stands_div nonzero divides).floor_ofFloat]
    exact Amount.toInt_saturate_of_fits (fits_floor_nearest nonzero divides)

theorem plainQuotient_eq (nonzero : b ≠ 0)
    (exact : b.toInt ∣ a.toInt ∨ |a.toInt| < 2 ^ 53) :
    plainQuotient a b = ⌊(a.toInt / b.toInt : ℚ)⌋ := by
  unfold plainQuotient
  by_cases divides : b.toInt ∣ a.toInt
  · rw [if_pos divides]
  · have small := exact.resolve_left divides
    rw [if_neg divides, rounded_of_small small.le, rounded]
    exact floor_nearest_div (toInt_ne_zero nonzero) small

/-! ### Formulas -/

section Formulas

variable {data : RollData} {left right : Node} {tags : List Node} {names : List Text}

theorem evaluateDamage_div (dividend : evaluate data left = .ok (.number (.int a)))
    (divisor : evaluate data right = .ok (.number (.int b))) :
    evaluateDamage data (.binary left .div right) =
      (Number.int a).div (.int b) >>= fun n => (Value.number n).toDamage := by
  rw [evaluateDamage, evaluate, dividend, divisor]
  show ((Number.int a).div (.int b)).map Value.number >>= Value.toDamage = _
  cases (Number.int a).div (.int b) <;> rfl

theorem evaluateDamage_tagged_div {q : Amount}
    (dividend : evaluate data left = .ok (.number (.int a)))
    (divisor : evaluate data right = .ok (.number (.int b)))
    (tagged : Node.tagNamesOfAll? data tags = some names) (nonzero : b ≠ 0)
    (quotient : (Term.constant a).shrink b = .ok (.constant q)) :
    evaluateDamage data (.binary (.tagged left tags) .div right) =
      .ok ((Instance.ofTerm (.constant q)).addTags names) := by
  have damage : evaluateDamage data left = .ok (.ofTerm (.constant a)) := by
    rw [evaluateDamage, dividend]
    rfl
  have left_damage : evaluate data (.tagged left tags) =
      .ok (.damage ((Instance.ofTerm (.constant a)).addTags names)) :=
    (evaluate_tagged_eq_ok_iff left tags _).mpr ⟨_, names, damage, tagged, rfl⟩
  have applied := apply_div_constant nonzero names quotient
  rw [evaluateDamage, evaluate, left_damage, divisor]
  show ((((Instance.ofTerm (.constant a)).addTags names).apply .div b).toExcept.map
    Value.damage) >>= Value.toDamage = _
  rw [applied]
  rfl

/-- A plain quotient of integers and the quotient of damage of the same amount are both
defined where the exact quotient is in the range. The quotient of damage is the exact one
rounded down, and so is the plain quotient, if there is no remainder or if the dividend is less
than 2⁵³. Else the dividend, the divisor and the quotient are each rounded to 53 digits
before. -/
theorem quotients_agree (dividend : evaluate data left = .ok (.number (.int a)))
    (divisor : evaluate data right = .ok (.number (.int b)))
    (tagged : Node.tagNamesOfAll? data tags = some names) (nonzero : b ≠ 0)
    (fits : Amount.Fits ⌊(a.toInt / b.toInt : ℚ)⌋) :
    ∃ p q : Amount,
      p.toInt = plainQuotient a b ∧ q.toInt = ⌊(a.toInt / b.toInt : ℚ)⌋ ∧
      (b.toInt ∣ a.toInt ∨ |a.toInt| < 2 ^ 53 → p = q) ∧
      ((Number.int a).div (.int b) >>= fun n => (Value.number n).toDamage) =
        .ok (.ofTerm (.constant p)) ∧
      (Term.constant a).shrink b = .ok (.constant q) ∧
      evaluateDamage data (.binary left .div right) = .ok (.ofTerm (.constant p)) ∧
      evaluateDamage data (.binary (.tagged left tags) .div right) =
        .ok ((Instance.ofTerm (.constant q)).addTags names) := by
  obtain ⟨n, divided, plain⟩ := exists_div_int nonzero fits
  have value := Amount.toInt_ofInt_of_fits fits
  have quotient := shrink_constant nonzero value
  have damage : ((Number.int a).div (.int b) >>= fun n => (Value.number n).toDamage) =
      .ok (.ofTerm (.constant n.toAmount)) := by
    rw [divided]
    rfl
  refine ⟨n.toAmount, _, plain, value, ?_, damage, quotient, ?_, ?_⟩
  · intro exact
    rw [← Int64.toInt_inj, plain, plainQuotient_eq nonzero exact, value]
  · rw [evaluateDamage_div dividend divisor, damage]
  · exact evaluateDamage_tagged_div dividend divisor tagged nonzero quotient

end Formulas

theorem quotients_agree_negative :
    evaluateDamage .empty (.binary (.negate (.integer 7)) .div (.integer 2)) =
      .ok (.ofTerm (.constant (-4))) ∧
    evaluateDamage .empty
        (.binary (.tagged (.negate (.integer 7)) [.name "fire".toList]) .div (.integer 2)) =
      .ok ((Instance.ofTerm (.constant (-4))).addTags ["fire".toList]) := by
  have quotient : ⌊(((-7 : Amount).toInt : ℚ) / ((2 : Amount).toInt : ℚ))⌋ = -4 := by
    rw [show (-7 : Amount).toInt = -7 from rfl, show (2 : Amount).toInt = 2 from rfl]
    norm_num
  have dividend : evaluate .empty (.negate (.integer 7)) = .ok (.number (.int (-7))) := rfl
  have divisor : evaluate .empty (.integer 2) = .ok (.number (.int 2)) := rfl
  have fire : Node.tagNamesOfAll? .empty [.name "fire".toList] = some ["fire".toList] := rfl
  obtain ⟨p, q, -, value, agree, -, -, plain, tagged⟩ :=
    quotients_agree dividend divisor fire (by decide) (by rw [quotient]; decide)
  obtain rfl := agree (.inr (by decide))
  have same : p = -4 := Int64.toInt_inj.mp (value.trans quotient)
  rw [same] at plain tagged
  exact ⟨plain, tagged⟩

/-- The bound is sharp: 2⁵³ divided by the next integer is 1 as a plain number and 0 as
damage. -/
theorem not_agree_beyond_doubles :
    ¬ ∀ a b : Amount, b ≠ 0 → Amount.Fits ⌊(a.toInt / b.toInt : ℚ)⌋ →
      ((Number.int a).div (.int b) >>= fun n => (Value.number n).toDamage) =
        ((Term.constant a).shrink b).map Instance.ofTerm := by
  intro agree
  have quotient : ⌊(((9007199254740992 : Amount).toInt : ℚ) /
      ((9007199254740993 : Amount).toInt : ℚ))⌋ = 0 := by
    rw [show (9007199254740992 : Amount).toInt = 9007199254740992 from rfl,
      show (9007199254740993 : Amount).toInt = 9007199254740993 from rfl]
    norm_num
  have plain : (Number.float ((Number.int 9007199254740992).toFloat /
      (Number.int 9007199254740993).toFloat)).toAmount = 1 := by
    decide +kernel
  have same := agree 9007199254740992 9007199254740993 (by decide) (by rw [quotient]; decide)
  rw [div_int_of_not_dvd (by decide) (by decide),
    shrink_constant (q := 0) (by decide) quotient.symm] at same
  have same' : Instance.ofTerm (.constant _) = Instance.ofTerm (.constant 0) := Except.ok.inj same
  rw [plain] at same'
  exact absurd same' (by decide)

end RuleText.Damage
