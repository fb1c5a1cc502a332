import Mathlib.Algebra.Order.Group.Nat

/-!
# Whole numbers in double precision

A number that is not negative keeps 53 bits from its highest one on, and is
rounded to the nearest such number, of two that are as near to the even one.
Here are the double of a whole number, and the whole part of the quotient of two
doubles that are whole. Nothing overflows, and no quotient is subnormal.
-/

namespace DoublePrecision

/-- The whole number next to a quotient. -/
def roundQuotient (n d : Nat) : Nat :=
  if 2 * (n % d) < d ∨ 2 * (n % d) = d ∧ n / d % 2 = 0 then n / d else n / d + 1

/-- The double of a number. -/
def ofNat (n : Nat) : Nat :=
  let unit := 2 ^ (n.log2 - 52)
  roundQuotient n unit * unit

/-- The places behind the point that a quotient below 2 ^ 53 keeps. -/
def places (n d : Nat) : Nat := 116 - (n * 2 ^ 64 / d).log2

/-- The whole part of the double of a quotient. -/
def truncDiv (n d : Nat) : Nat := roundQuotient (n * 2 ^ places n d) d / 2 ^ places n d

theorem roundQuotient_bounds (n d : Nat) :
    n / d ≤ roundQuotient n d ∧ roundQuotient n d ≤ n / d + 1 := by
  unfold roundQuotient
  split <;> omega

theorem roundQuotient_one (n : Nat) : roundQuotient n 1 = n := by
  simp [roundQuotient, Nat.mod_one]

/-- 53 bits are enough for the number. -/
theorem ofNat_of_lt {n : Nat} (h : n < 2 ^ 53) : ofNat n = n := by
  have unit : n.log2 - 52 = 0 := by
    by_cases zero : n = 0
    · simp [zero]
    · have := (Nat.log2_lt zero).mpr h
      omega
  simp only [ofNat, unit, pow_zero, roundQuotient_one, mul_one]

/-- The rounding may carry a quotient to the next whole number, and no further. -/
theorem truncDiv_bounds (n d : Nat) : n / d ≤ truncDiv n d ∧ truncDiv n d ≤ n / d + 1 := by
  have positive : 0 < 2 ^ places n d := Nat.two_pow_pos _
  have whole : n * 2 ^ places n d / d / 2 ^ places n d = n / d := by
    rw [Nat.div_div_eq_div_mul, Nat.mul_div_mul_right _ _ positive]
  obtain ⟨lower, upper⟩ := roundQuotient_bounds (n * 2 ^ places n d) d
  constructor
  · rw [truncDiv, ← whole]
    exact Nat.div_le_div_right lower
  · rw [truncDiv, ← whole, ← Nat.add_div_right _ positive]
    refine Nat.div_le_div_right (upper.trans ?_)
    omega

end DoublePrecision
