import Screencast.Number.Basic

/-!
# Reaching a quantity in steps

A loop that adds up steps of one size until their sum is not below a quantity ends after
`Number.stepsToReach` passes, and never if the quantity is `Boundless`.
-/

namespace Screencast

theorem ceilQuotient_le_iff {den : Nat} (h : 0 < den) (num k : Nat) :
    ceilQuotient num den ≤ k ↔ num ≤ k * den := by
  have hdivision : den * (num / den) + num % den = num := Nat.div_add_mod num den
  unfold ceilQuotient
  by_cases hexact : num % den = 0
  · have hmultiple : den * (num / den) = num := by
      rwa [hexact, Nat.add_zero] at hdivision
    rw [if_pos hexact, Nat.add_zero, ← Nat.mul_le_mul_left_iff h, hmultiple, Nat.mul_comm]
  · rw [if_neg hexact, Nat.succ_le_iff, Nat.div_lt_iff_lt_mul h]
    constructor
    · exact Nat.le_of_lt
    · intro hk
      -- a multiple of the denominator has no rest
      refine Nat.lt_of_le_of_ne hk fun heq => hexact ?_
      rw [heq, Nat.mul_mod_left]

theorem Binary64.magnitude_den_pos (significand : Nat) (exponent : Int) :
    0 < (magnitude significand exponent).2 := by
  have hpower : 0 < 2 ^ (-exponent).toNat := Nat.two_pow_pos _
  show 0 < scaleUp 1 (-exponent)
  rwa [scaleUp, Nat.shiftLeft_eq, Nat.one_mul]

namespace Number

/-- Whether a sum of whole steps is not below the quantity; nothing is above or beside the value that is
no number. -/
def reachedBy (sum : Nat) : Number → Bool
  | .int n => n ≤ sum
  | .real (.finite negative m e) =>
    let (num, den) := Binary64.magnitude m e
    negative || num ≤ sum * den
  | .real (.infinite negative) => negative
  | .real .nan => false

variable {step count : Nat} {quantity : Number}

/-- The count of steps is the least one whose sum reaches the quantity. -/
theorem reachedBy_iff_of_stepsToReach (hstep : 0 < step)
    (h : quantity.stepsToReach step = some count) (k : Nat) :
    quantity.reachedBy (k * step) = true ↔ count ≤ k := by
  match quantity with
  | .int n =>
      obtain rfl : ceilQuotient n.toNat step = count := Option.some.inj h
      rw [ceilQuotient_le_iff hstep, reachedBy, decide_eq_true_eq]
      omega
  | .real (.finite true m e) =>
      obtain rfl : 0 = count := Option.some.inj h
      exact iff_of_true rfl (Nat.zero_le k)
  | .real (.finite false m e) =>
      have hcount : ceilQuotient (Binary64.magnitude m e).1 ((Binary64.magnitude m e).2 * step)
          = count :=
        Option.some.inj h
      have hden : 0 < (Binary64.magnitude m e).2 * step :=
        Nat.mul_pos (Binary64.magnitude_den_pos m e) hstep
      rw [← hcount, ceilQuotient_le_iff hden, Nat.mul_left_comm,
        Nat.mul_comm (Binary64.magnitude m e).2]
      simp [reachedBy]
  | .real (.infinite true) =>
      obtain rfl : 0 = count := Option.some.inj h
      exact iff_of_true rfl (Nat.zero_le k)
  | .real (.infinite false) | .real .nan => cases h

/-- The quantities that no sum reaches: the infinity above all numbers, and the value that is no
number. -/
def Boundless (quantity : Number) : Prop :=
  quantity = .real (.infinite false) ∨ quantity = .real .nan

theorem stepsToReach_eq_none_iff : quantity.stepsToReach step = none ↔ quantity.Boundless := by
  match quantity with
  | .int n | .real (.finite negative m e) | .real (.infinite true) => simp [stepsToReach, Boundless]
  | .real (.infinite false) | .real .nan => simp [stepsToReach, Boundless]

theorem Boundless.reachedBy (h : quantity.Boundless) (sum : Nat) : quantity.reachedBy sum = false := by
  rcases h with rfl | rfl <;> rfl

end Number

end Screencast
