import Mathlib.Algebra.Order.Floor.Semifield
import Mathlib.Data.Rat.Floor
import Screencast.Proofs.Number.Finite
import Screencast.Proofs.Number.Reaching

/-!
# How far rounding goes

A quotient that is rounded moves by half a unit in the last of 53 places at most, or by half the least
positive number: `RoundsTo.near`.  It does not pass a binary number: `RoundsTo.le`, `RoundsTo.ge`.  Each
operation on numbers that are not negative is the exact one with such a rounding.
-/

namespace Screencast.Binary64

/-- The greatest relative error of a rounding. -/
def roundoff : ℚ := 1 / 2 ^ (fractionBits + 1)

/-- The greatest error of a rounding at the least exponent. -/
def underflow : ℚ := 2 ^ (leastExponent - 1)

theorem roundoff_nonneg : 0 ≤ roundoff := by
  rw [roundoff]
  positivity

/-- A finite number without a minus sign, and its value. -/
def Amounts (x : Binary64) (value : ℚ) : Prop :=
  ∃ significand exponent, x = .finite false significand exponent ∧
    value = significand * 2 ^ exponent

/-- The number that a value is rounded to. -/
def RoundsTo (value : ℚ) (x : Binary64) : Prop :=
  ∃ num den : Nat, 0 < den ∧ value = num / den ∧ x = ofRatio false num den

variable {x y : Binary64} {a b r value bound : ℚ}

namespace Amounts

theorem nonneg (h : x.Amounts r) : 0 ≤ r := by
  obtain ⟨m, e, -, rfl⟩ := h
  positivity

theorem isFinite (h : x.Amounts r) : x.IsFinite := by
  obtain ⟨m, e, rfl, -⟩ := h
  trivial

theorem unique (h : x.Amounts r) (h' : x.Amounts value) : r = value := by
  obtain ⟨m, e, rfl, rfl⟩ := h
  obtain ⟨_, _, ⟨⟩, rfl⟩ := h'
  rfl

/-- A number is rounded down to the greatest integer that is not above its value. -/
theorem floor (h : x.Amounts r) : x.floor = .ok (⌊r⌋₊ : Int) := by
  obtain ⟨m, e, rfl, rfl⟩ := h
  have hfloor : ⌊(m * 2 ^ e : ℚ)⌋₊ = (magnitude m e).1 / (magnitude m e).2 := by
    rw [← Nat.floor_div_eq_div (K := ℚ)]
    exact congrArg Nat.floor (ofScaled_value m e).symm
  rw [hfloor]
  rfl

end Amounts

/-! ## One rounding -/

/-- A significand that rounding carried to 54 bits is halved, which does not change the value. -/
theorem pack_amounts {significand : Nat} {exponent : Int}
    (h : (pack false significand exponent).IsFinite) :
    (pack false significand exponent).Amounts (significand * 2 ^ exponent) := by
  unfold pack at h ⊢
  by_cases hcarried : significand = Nat.pow 2 (fractionBits + 1)
  · simp only [hcarried, if_true] at h ⊢
    split at h
    · exact h.elim
    · next hrange =>
      refine ⟨_, _, if_neg hrange, ?_⟩
      rw [zpow_add₀ two_ne_zero]
      simp only [Nat.pow_eq, fractionBits]
      push_cast
      ring
  · simp only [hcarried, if_false] at h ⊢
    split at h
    · exact h.elim
    · next hrange => exact ⟨_, _, if_neg hrange, rfl⟩

namespace RoundsTo

theorem nonneg (h : RoundsTo value x) : 0 ≤ value := by
  obtain ⟨num, den, -, rfl, -⟩ := h
  positivity

/-- A value that is rounded to a finite number: the scale of the result and its significand. -/
theorem cases (h : RoundsTo value x) (hfinite : x.IsFinite) :
    (value = 0 ∧ x.Amounts 0) ∨
      ∃ (significand : Nat) (leading exponent : Int), x.Amounts (significand * 2 ^ exponent) ∧
        (2 : ℚ) ^ leading ≤ value ∧ exponent = max (leading - fractionBits) leastExponent ∧
        NearestTo (value * 2 ^ (-exponent)) significand ∧
        (2 ^ fractionBits ≤ significand ∨ exponent = leastExponent) := by
  obtain ⟨num, den, hden, rfl, rfl⟩ := h
  rcases Nat.eq_zero_or_pos num with rfl | hnum
  · have hzero : ofRatio false 0 den = .finite false 0 leastExponent := by simp [ofRatio, zero]
    exact .inl ⟨by rw [Nat.cast_zero, zero_div], 0, leastExponent, hzero, by rw [Nat.cast_zero, zero_mul]⟩
  · obtain ⟨m, e, hpack, hmax, hnearest, -, hfull⟩ := ofRatio_cases false hnum hden
    rw [hpack] at hfinite
    refine .inr ⟨m, leadingBit num den, e, ?_, (leadingBit_spec hnum hden).1, hmax, hnearest, hfull⟩
    rw [hpack]
    exact pack_amounts hfinite

/-- Rounding moves a value by its last place at most. -/
theorem near (h : RoundsTo value x) (hx : x.Amounts r) :
    |r - value| ≤ max (value * roundoff) underflow := by
  rcases h.cases hx.isFinite with ⟨rfl, hzero⟩ | ⟨m, leading, e, hm, hlow, hmax, hnearest, -⟩
  · rw [hx.unique hzero, sub_self, abs_zero]
    exact le_max_of_le_right (two_zpow_pos _).le
  · have hscale : value * 2 ^ (-e) * 2 ^ e = value := by
      rw [mul_assoc, ← zpow_add₀ two_ne_zero, neg_add_cancel, zpow_zero, mul_one]
    have hhalf : |r - value| ≤ 2 ^ (e - 1) := by
      have hwithin : |(m : ℚ) - value * 2 ^ (-e)| ≤ 1 / 2 := by
        rw [abs_le]
        constructor <;> linarith [hnearest.low, hnearest.high]
      calc |r - value| = |(m : ℚ) - value * 2 ^ (-e)| * 2 ^ e := by
            rw [hx.unique hm, ← abs_of_pos (two_zpow_pos e), ← abs_mul, abs_of_pos (two_zpow_pos e),
              sub_mul, hscale]
        _ ≤ 1 / 2 * 2 ^ e := mul_le_mul_of_nonneg_right hwithin (two_zpow_pos e).le
        _ = 2 ^ (e - 1) := by
            rw [zpow_sub_one₀ two_ne_zero]
            ring
    refine hhalf.trans ?_
    rcases max_choice (leading - fractionBits) leastExponent with hchoice | hchoice
    · refine le_max_of_le_left ?_
      have hplace : e - 1 = leading - (fractionBits + 1 : Nat) := by
        push_cast
        omega
      rw [hplace, zpow_sub₀ two_ne_zero, zpow_natCast, roundoff, mul_one_div]
      exact div_le_div_of_nonneg_right hlow (by positivity)
    · rw [hmax, hchoice]
      exact le_max_right _ _

/-- Rounding does not pass a binary number from below. -/
theorem le {n : Nat} {f : Int} (h : RoundsTo value x) (hx : x.Amounts r)
    (hbound : Representable bound n f) (hle : value ≤ bound) : r ≤ bound := by
  obtain ⟨num, den, hden, rfl, rfl⟩ := h
  have hmost := ofRatio_atMost_of_representable false hden hbound hle
  obtain ⟨m, e, hvalue, rfl⟩ := hx
  rwa [hvalue] at hmost

/-- Nor from above. -/
theorem ge {n : Nat} {f : Int} (h : RoundsTo value x) (hx : x.Amounts r)
    (hbound : Representable bound n f) (hle : bound ≤ value) : bound ≤ r := by
  rcases h.cases hx.isFinite with ⟨rfl, hzero⟩ | ⟨m, leading, e, hm, -, hmax, hnearest, hfull⟩
  · rwa [hx.unique hzero]
  · rw [hx.unique hm]
    rcases le_or_gt e f with hscale | hscale
    · -- the bound is an integer at the scale of the result
      obtain ⟨j, hj⟩ := Int.eq_ofNat_of_zero_le (sub_nonneg.mpr hscale)
      have hvalue : bound = (n * 2 ^ j : Nat) * 2 ^ e := by
        have hexponent : f = j + e := by omega
        rw [hbound.value, hexponent, zpow_add₀ two_ne_zero, zpow_natCast]
        push_cast
        ring
      have hbelow : ((n * 2 ^ j : Nat) : ℚ) ≤ value * 2 ^ (-e) := by
        rw [zpow_neg, ← div_eq_mul_inv, le_div_iff₀ (two_zpow_pos e), ← hvalue]
        exact hle
      rw [hvalue]
      exact mul_le_mul_of_nonneg_right (by exact_mod_cast hnearest.le_of_ge hbelow)
        (two_zpow_pos e).le
    · -- the result has a full significand at a greater scale
      have hleast := hbound.least
      have hbits : (2 ^ fractionBits : Nat) ≤ m := hfull.resolve_right (by omega)
      calc bound ≤ 2 ^ ((fractionBits + 1 : Nat) : Int) * 2 ^ f := by
            rw [hbound.value, two_zpow_natCast]
            exact mul_le_mul_of_nonneg_right (by exact_mod_cast hbound.bits.le) (two_zpow_pos f).le
        _ = 2 ^ ((fractionBits + 1 : Nat) + f) := (zpow_add₀ two_ne_zero _ _).symm
        _ ≤ 2 ^ ((fractionBits : Nat) + e) := zpow_le_zpow_right₀ one_le_two (by push_cast; omega)
        _ = (2 ^ fractionBits : Nat) * 2 ^ e := by rw [zpow_add₀ two_ne_zero, two_zpow_natCast]
        _ ≤ m * 2 ^ e := mul_le_mul_of_nonneg_right (by exact_mod_cast hbits) (two_zpow_pos e).le

theorem exists_amounts (h : RoundsTo value x) (hfinite : x.IsFinite) : ∃ r, x.Amounts r := by
  rcases h.cases hfinite with ⟨-, hzero⟩ | ⟨m, -, e, hm, -⟩
  · exact ⟨0, hzero⟩
  · exact ⟨_, hm⟩

/-- A binary number is rounded to itself. -/
theorem amounts {n : Nat} {f : Int} (h : RoundsTo value x) (hvalue : Representable value n f) :
    x.Amounts value := by
  obtain ⟨num, den, hden, hratio, rfl⟩ := h
  have hfinite := (ofRatio_atMost_of_representable false hden hvalue hratio.ge).isFinite
  have hrounds : RoundsTo value (ofRatio false num den) := ⟨num, den, hden, hratio, rfl⟩
  obtain ⟨r, hr⟩ := hrounds.exists_amounts hfinite
  have hsame : r = value := le_antisymm (hrounds.le hr hvalue le_rfl) (hrounds.ge hr hvalue le_rfl)
  exact hsame ▸ hr

/-- Zero does not move, and what is not far below one moves by its share at most. -/
theorem near_of_quarter (h : RoundsTo value x) (hx : x.Amounts r)
    (hvalue : value = 0 ∨ 1 / 4 ≤ value) : |r - value| ≤ value * roundoff := by
  rcases hvalue with rfl | hquarter
  · have hzero : Representable (0 : ℚ) 0 leastExponent := ⟨by simp, by decide, by decide, by decide⟩
    rw [hx.unique (h.amounts hzero), sub_self, abs_zero, zero_mul]
  · refine (h.near hx).trans (max_le le_rfl ?_)
    calc underflow ≤ 2 ^ (-2 - (fractionBits + 1 : Nat) : Int) :=
          zpow_le_zpow_right₀ one_le_two (by decide)
      _ = 1 / 4 * roundoff := by
          rw [zpow_sub₀ two_ne_zero, zpow_natCast, roundoff, mul_one_div]
          norm_num
      _ ≤ value * roundoff := mul_le_mul_of_nonneg_right hquarter roundoff_nonneg

end RoundsTo

/-! ## Operations -/

theorem ofInt_roundsTo (n : Nat) : RoundsTo n (ofInt n) :=
  ⟨n, 1, Nat.one_pos, by rw [Nat.cast_one, div_one], ofInt_natCast n⟩

theorem representable_natCast {n : Nat} (h : n < 2 ^ (fractionBits + 1)) : Representable n n 0 where
  value := by rw [zpow_zero, mul_one]
  bits := h
  least := by decide
  greatest := by decide

/-- Integers of 53 bits are exact. -/
theorem ofInt_amounts {n : Nat} (h : n < 2 ^ (fractionBits + 1)) : (ofInt n).Amounts n :=
  (ofInt_roundsTo n).amounts (representable_natCast h)

/-- A sum is finite only if both numbers are. -/
theorem isFinite_of_add (h : (x.add y).IsFinite) : x.IsFinite ∧ y.IsFinite := by
  cases x with
  | nan => exact h.elim
  | infinite s =>
      cases y with
      | nan => exact h.elim
      | infinite t =>
          simp only [Binary64.add] at h
          split at h <;> exact h.elim
      | finite t n f => exact h.elim
  | finite s m e =>
      cases y with
      | nan => exact h.elim
      | infinite t => exact h.elim
      | finite t n f => exact ⟨trivial, trivial⟩

namespace Amounts

theorem mul (hx : x.Amounts a) (hy : y.Amounts b) : RoundsTo (a * b) (x.mul y) := by
  obtain ⟨m, e, rfl, rfl⟩ := hx
  obtain ⟨n, f, rfl, rfl⟩ := hy
  refine ⟨_, _, scaleUp_pos Nat.one_pos _, ?_, rfl⟩
  rw [ofScaled_value, zpow_add₀ two_ne_zero]
  push_cast
  ring

theorem div (hx : x.Amounts a) (hy : y.Amounts b) (hb : 0 < b) : RoundsTo (a / b) (x.div y) := by
  obtain ⟨m, e, rfl, rfl⟩ := hx
  obtain ⟨n, f, rfl, rfl⟩ := hy
  have hn : n ≠ 0 := by
    rintro rfl
    simp at hb
  have hscale := scaleUp_div_scaleUp m n (f - e)
  rw [neg_sub] at hscale
  refine ⟨scaleUp m (e - f), scaleUp n (f - e), scaleUp_pos (Nat.pos_of_ne_zero hn) _, ?_, ?_⟩
  · rw [hscale, zpow_sub₀ two_ne_zero, div_mul_div_comm]
  · simp only [Binary64.div, if_neg hn]
    rfl

theorem add (hx : x.Amounts a) (hy : y.Amounts b) : RoundsTo (a + b) (x.add y) := by
  obtain ⟨m, e, rfl, rfl⟩ := hx
  obtain ⟨n, f, rfl, rfl⟩ := hy
  let sum : Nat := scaleUp m (e - min e f) + scaleUp n (f - min e f)
  have hadd : (Binary64.finite false m e).add (.finite false n f)
      = if (sum : Int) = 0 then zero false
        else ofScaled ((sum : Int) < 0) (sum : Int).natAbs (min e f) := rfl
  have hvalue : (m * 2 ^ e + n * 2 ^ f : ℚ) = sum * 2 ^ min e f := by
    rw [Nat.cast_add, add_mul, scaleUp_sub_value m (min_le_left e f),
      scaleUp_sub_value n (min_le_right e f)]
  rw [hvalue]
  by_cases hsum : (sum : Int) = 0
  · rw [if_pos hsum] at hadd
    have hzero : sum = 0 := by exact_mod_cast hsum
    rw [hadd, hzero]
    exact ⟨0, 1, Nat.one_pos, by simp, by simp [ofRatio]⟩
  · rw [if_neg hsum, decide_eq_false (Int.not_lt.mpr (Int.natCast_nonneg sum)),
      Int.natAbs_natCast] at hadd
    exact ⟨_, _, scaleUp_pos Nat.one_pos _, (ofScaled_value sum (min e f)).symm, hadd⟩

end Amounts

end Screencast.Binary64
