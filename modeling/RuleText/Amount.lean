/-!
# Amounts of 64 bits

Counts, sizes, modifiers and results of formulas are signed 64-bit integers.
Each operation is the one on unbounded integers followed by a check that the
result fits (`Amount.fit?`) or by moving it to the nearest amount
(`Amount.saturate`), so statements about amounts become statements in `Int`.
-/

namespace RuleText

/-- A signed 64-bit integer. -/
abbrev Amount := Int64

namespace Amount

/-- The least amount, −2⁶³. -/
def least : Int := -9223372036854775808

/-- The greatest amount, 2⁶³ − 1. -/
def greatest : Int := 9223372036854775807

/-- The unsigned 64-bit numbers are those below 2⁶⁴. -/
def unsignedLimit : Nat := 18446744073709551616

/-- Whether an integer is an amount. -/
def Fits (x : Int) : Prop :=
  least ≤ x ∧ x ≤ greatest

instance (x : Int) : Decidable (Fits x) :=
  inferInstanceAs (Decidable (_ ∧ _))

/-- An integer as an amount, if it is one. -/
def fit? (x : Int) : Option Amount :=
  if Fits x then some (Int64.ofInt x) else none

/-- The amount nearest to an integer. -/
def saturate (x : Int) : Amount :=
  if x < least then Int64.ofInt least
  else if greatest < x then Int64.ofInt greatest
  else Int64.ofInt x

theorem fits_toInt (a : Amount) : Fits a.toInt :=
  ⟨Int64.le_toInt a, Int64.toInt_le a⟩

theorem toInt_ofInt_of_fits {x : Int} (h : Fits x) : (Int64.ofInt x).toInt = x := by
  apply Int64.toInt_ofInt_of_le <;> simp [Fits, least, greatest] at h <;> omega

theorem fit?_eq_some_iff {x : Int} {a : Amount} : fit? x = some a ↔ a.toInt = x := by
  constructor
  · intro h
    by_cases hx : Fits x
    · simp [fit?, hx] at h
      rw [← h, toInt_ofInt_of_fits hx]
    · simp [fit?, hx] at h
  · rintro rfl
    simp [fit?, fits_toInt]

theorem fit?_eq_none_iff {x : Int} : fit? x = none ↔ ¬ Fits x := by
  simp [fit?]

theorem toInt_saturate_of_fits {x : Int} (h : Fits x) : (saturate x).toInt = x := by
  have h' := h
  simp only [Fits] at h'
  simp [saturate, Int.not_lt.mpr h'.1, Int.not_lt.mpr h'.2, toInt_ofInt_of_fits h]

theorem bmod_of_fits {x : Int} (h : Fits x) : x.bmod 18446744073709551616 = x := by
  apply Int.bmod_eq_of_le <;> simp [Fits, least, greatest] at h <;> omega

theorem toInt_add_of_fits {a b : Amount} (h : Fits (a.toInt + b.toInt)) :
    (a + b).toInt = a.toInt + b.toInt := by
  rw [Int64.toInt_add]
  exact bmod_of_fits h

theorem toInt_mul_of_fits {a b : Amount} (h : Fits (a.toInt * b.toInt)) :
    (a * b).toInt = a.toInt * b.toInt := by
  rw [Int64.toInt_mul]
  exact bmod_of_fits h

theorem toInt_neg_of_fits {a : Amount} (h : Fits (-a.toInt)) : (-a).toInt = -a.toInt := by
  rw [Int64.toInt_neg]
  exact bmod_of_fits h

/-- The sum, if it fits. -/
def add? (a b : Amount) : Option Amount :=
  fit? (a.toInt + b.toInt)

/-- The difference, if it fits. -/
def sub? (a b : Amount) : Option Amount :=
  fit? (a.toInt - b.toInt)

/-- The product, if it fits. -/
def mul? (a b : Amount) : Option Amount :=
  fit? (a.toInt * b.toInt)

/-- The opposite, if it fits: the least amount has none. -/
def neg? (a : Amount) : Option Amount :=
  fit? (-a.toInt)

/-- The quotient rounded toward negative infinity, for a divisor other than zero.
Only the least amount divided by −1 does not fit. -/
def floorDiv? (a b : Amount) : Option Amount :=
  fit? (a.toInt.fdiv b.toInt)

/-- The sum, or the amount nearest to it. -/
def addSaturating (a b : Amount) : Amount :=
  saturate (a.toInt + b.toInt)

/-- The product, or the amount nearest to it. -/
def mulSaturating (a b : Amount) : Amount :=
  saturate (a.toInt * b.toInt)

/-- The saturating sum of a list, added from the left. -/
def sum (xs : List Amount) : Amount :=
  xs.foldl addSaturating 0

end Amount

end RuleText
