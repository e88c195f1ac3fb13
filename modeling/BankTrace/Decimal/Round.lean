/-!
# Rounding

A quotient of natural numbers is rounded to the nearest natural number, and to the even one of two
that are equally near. The same rule rounds a quotient to a binary fraction of a given precision.
-/

namespace BankTrace.Decimal

/-- The nearest natural number to `num / den`; of two that are equally near, the even one. -/
def roundHalfEven (num den : Nat) : Nat :=
  let low := num / den
  let rest := 2 * (num % den)
  if rest < den then low
  else if rest > den then low + 1
  else if low % 2 = 0 then low
  else low + 1

/-- A rounded quotient differs from the quotient by one half at most. -/
theorem roundHalfEven_near (num : Nat) {den : Nat} (h : 0 < den) :
    2 * num ≤ 2 * (roundHalfEven num den * den) + den ∧
      2 * (roundHalfEven num den * den) ≤ 2 * num + den := by
  have split := Nat.div_add_mod num den
  have small := Nat.mod_lt num h
  have grow : (num / den + 1) * den = den * (num / den) + den := by
    rw [Nat.add_mul, Nat.one_mul, Nat.mul_comm]
  have same : num / den * den = den * (num / den) := Nat.mul_comm ..
  unfold roundHalfEven
  simp only
  split
  · omega
  · split
    · omega
    · split <;> omega

end BankTrace.Decimal
