/-!
# Rounding a quotient to an integer

`roundQuotient num den` is the integer nearest to `num / den`, and of two integers that are equally
near it is the even one.  Every rounding of the library is this one at a suitable scale: the
significand of a binary number, the digits after a decimal point, a duration in whole milliseconds.
-/

namespace Screencast

/-- The natural number nearest to `num / den`; a tie goes to the even neighbour. -/
def roundQuotient (num den : Nat) : Nat :=
  let quotient := num / den
  let twice := 2 * (num % den)
  if twice < den then quotient
  else if den < twice then quotient + 1
  else quotient + quotient % 2

/-- `num / den` rounded up. -/
def ceilQuotient (num den : Nat) : Nat :=
  num / den + (if num % den = 0 then 0 else 1)

/-- `n · 2 ^ shift`, and `n` itself when the shift is negative. -/
def scaleUp (n : Nat) (shift : Int) : Nat :=
  n <<< shift.toNat

/-- An exact quotient is not changed by rounding. -/
theorem roundQuotient_mul_left (q : Nat) {den : Nat} (h : 0 < den) :
    roundQuotient (den * q) den = q := by
  have hq : den * q / den = q := Nat.mul_div_cancel_left q h
  simp [roundQuotient, hq, h]

theorem scaleUp_of_nonpos (n : Nat) {shift : Int} (h : shift ≤ 0) : scaleUp n shift = n := by
  simp [scaleUp, Int.toNat_of_nonpos h]

end Screencast
