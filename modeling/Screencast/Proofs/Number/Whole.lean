import Screencast.Proofs.Number.RoundingError
import Screencast.Proofs.Number.Shortest

/-!
# Whole binary numbers

A binary number that is rounded to an integer gives a binary number again: either it has no fraction, or
its integer part has few bits.  Such an integer can be halved without a rounding:
`Number.half_amounts`.
-/

namespace Screencast

namespace Binary64

variable {significand : Nat} {exponent : Int} {value : ℚ}

/-- A number without a fraction loses nothing when it is halved. -/
theorem Representable.half (h : Representable value significand exponent) (hwhole : 0 ≤ exponent) :
    Representable (value / 2) significand (exponent - 1) where
  value := by
    rw [h.value, zpow_sub_one₀ two_ne_zero]
    ring
  bits := h.bits
  least := by
    simp only [leastExponent]
    omega
  greatest := (Int.sub_le_self exponent zero_le_one).trans h.greatest

/-- The integer nearest to a number is a number without a fraction. -/
theorem Canonical.representable_round (h : Canonical significand exponent) :
    ∃ l f, 0 ≤ f ∧ Representable
      (roundQuotient (magnitude significand exponent).1 (magnitude significand exponent).2) l f := by
  rcases le_total 0 exponent with hwhole | hsmall
  · -- the number has no fraction, so it is not changed
    have hden : scaleUp 1 (-exponent) = 1 := scaleUp_of_nonpos 1 (by omega)
    have hexact : roundQuotient (scaleUp significand exponent) 1 = scaleUp significand exponent := by
      have hquotient := roundQuotient_mul_left (scaleUp significand exponent) Nat.one_pos
      rwa [one_mul] at hquotient
    have hvalue : (scaleUp significand exponent : ℚ) = significand * 2 ^ exponent := by
      rw [scaleUp_cast, ← zpow_natCast, Int.toNat_of_nonneg hwhole]
    refine ⟨significand, exponent, hwhole, ?_⟩
    simp only [magnitude, hden, hexact, hvalue]
    exact h.representable
  · -- the number is not above its significand, so 53 bits are enough for the integer
    have hnearest := roundQuotient_nearest (magnitude significand exponent).1
      (magnitude_den_pos significand exponent)
    have hbelow : ((magnitude significand exponent).1 : ℚ) / (magnitude significand exponent).2
        ≤ significand := by
      calc ((magnitude significand exponent).1 : ℚ) / (magnitude significand exponent).2
          = significand * 2 ^ exponent := ofScaled_value significand exponent
        _ ≤ significand := mul_le_of_le_one_right (Nat.cast_nonneg significand)
            (zpow_le_one_of_nonpos₀ one_le_two hsmall)
    exact ⟨_, 0, le_rfl, representable_natCast ((hnearest.le_of_le hbelow).trans_lt h.bits)⟩

/-- The integer that a number is rounded to has its magnitude among the numbers without a fraction. -/
theorem InForm.representable_round {x : Binary64} {n : Int} (hx : x.InForm) (h : x.round = .ok n) :
    ∃ l f, 0 ≤ f ∧ Representable n.natAbs l f := by
  cases x with
  | infinite negative => cases h
  | nan => cases h
  | finite negative m e =>
      obtain rfl := Except.ok.inj h
      have hmagnitude : (roundFinite negative m e).natAbs
          = roundQuotient (magnitude m e).1 (magnitude m e).2 := by
        cases negative with
        | false => exact Int.natAbs_natCast _
        | true => exact Int.natAbs_neg _
      rw [hmagnitude]
      exact Canonical.representable_round hx

theorem inForm_div (x y : Binary64) : (x.div y).InForm := by
  match x, y with
  | .nan, _ => trivial
  | .infinite _, .nan | .infinite _, .infinite _ | .infinite _, .finite _ _ _ => trivial
  | .finite _ _ _, .nan => trivial
  | .finite s _ _, .infinite t => exact inForm_zero (s != t)
  | .finite s m e, .finite t n f =>
      simp only [div]
      split_ifs with hn hm
      · trivial
      · trivial
      · exact inForm_ofRatio _ (scaleUp_pos (Nat.pos_of_ne_zero hn) _)

end Binary64

namespace Number

/-- A quotient is rounded to a binary number. -/
theorem inForm_div {quantity : Number} {n : Int} {x : Binary64} (hn : n ≠ 0)
    (h : quantity.div (.int n) = .ok x) : x.InForm := by
  cases quantity with
  | int m =>
      simp only [div, quotient] at h
      split at h
      · cases h
      · obtain rfl := Except.ok.inj h
        exact Binary64.inForm_ofRatio _ (Int.natAbs_pos.mpr hn)
  | real y =>
      obtain ⟨dividend, -, h⟩ := exists_of_bind_eq_ok h
      obtain ⟨divisor, -, h⟩ := exists_of_bind_eq_ok h
      obtain rfl := Except.ok.inj h
      exact Binary64.inForm_div dividend divisor

/-- An integer that is a binary number has its half as a binary number. -/
theorem half_amounts {n significand : Nat} {exponent : Int}
    (h : Binary64.Representable n significand exponent) (hwhole : 0 ≤ exponent) :
    ∃ half, (Number.int n).div (.int 2) = .ok half ∧ half.Amounts (n / 2) := by
  have hrounds : Binary64.RoundsTo (n / 2) (Binary64.ofRatio false n 2) :=
    ⟨n, 2, two_pos, by norm_num, rfl⟩
  have hhalf := hrounds.amounts (h.half hwhole)
  refine ⟨_, ?_, hhalf⟩
  have hfinite : (Binary64.ofRatio false n 2).isInfinite = false := by
    obtain ⟨m, e, hvalue, -⟩ := hhalf
    rw [hvalue]
    rfl
  have hsign : decide ((n : Int) < 0) = false := decide_eq_false (Int.not_lt.mpr (Int.natCast_nonneg n))
  have hnegative : (decide ((n : Int) < 0) != decide ((2 : Int) < 0)) = false := by
    rw [hsign]
    rfl
  simp only [div, quotient, hnegative, Int.natAbs_natCast]
  rw [show (2 : Int).natAbs = 2 from rfl, hfinite]
  rfl

end Number

end Screencast
