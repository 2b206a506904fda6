import Mathlib.Algebra.Order.Field.Power
import Mathlib.Tactic.FieldSimp
import Mathlib.Tactic.Linarith
import Mathlib.Tactic.NormNum
import Mathlib.Tactic.Positivity
import Mathlib.Tactic.Ring
import Screencast.Number.Binary64

/-!
# Rounding to 53 bits

A quotient is scaled by a power of two, so that 53 bits stand before the point, and rounded to the
nearest integer.  `NearestTo` says what that integer is, and `ofRatio_eq` computes a rounded quotient
from it; `canonical_ofRatio` says that finite results have one form.
-/

namespace Screencast

theorem scaleUp_cast (n : Nat) (shift : Int) : (scaleUp n shift : ℚ) = n * 2 ^ shift.toNat := by
  rw [scaleUp, Nat.shiftLeft_eq]
  push_cast
  rfl

/-- Scaling both sides of a quotient moves the point by an exponent of either sign. -/
theorem scaleUp_div_scaleUp (num den : Nat) (exponent : Int) :
    (scaleUp num (-exponent) : ℚ) / scaleUp den exponent = num / den * 2 ^ (-exponent) := by
  rw [scaleUp_cast, scaleUp_cast]
  rcases le_total 0 exponent with h | h
  · rw [Int.toNat_of_nonpos (by omega : -exponent ≤ 0), pow_zero, mul_one]
    obtain ⟨k, rfl⟩ := Int.eq_ofNat_of_zero_le h
    rw [Int.toNat_natCast, zpow_neg, zpow_natCast, div_mul_eq_div_div, div_eq_mul_inv (num / den : ℚ)]
  · rw [Int.toNat_of_nonpos h, pow_zero, mul_one]
    obtain ⟨k, hk⟩ := Int.eq_ofNat_of_zero_le (by omega : 0 ≤ -exponent)
    rw [hk, Int.toNat_natCast, zpow_natCast, div_mul_eq_mul_div]

/-! ## The nearest integer -/

/-- An integer nearest to a number, the even one of two. -/
structure NearestTo (x : ℚ) (n : Nat) : Prop where
  low : (n : ℚ) - 1 / 2 ≤ x
  high : x ≤ n + 1 / 2
  tie : x = n - 1 / 2 ∨ x = n + 1 / 2 → n % 2 = 0

/-- There is only one. -/
theorem NearestTo.unique {x : ℚ} {n n' : Nat} (h : NearestTo x n) (h' : NearestTo x n') : n = n' := by
  rcases Nat.lt_trichotomy n n' with hlt | heq | hlt
  · have hgap : (n : ℚ) + 1 ≤ n' := by exact_mod_cast hlt
    have hhigh := h.high
    have hlow := h'.low
    have hsucc : n' = n + 1 := by
      have : (n' : ℚ) ≤ n + 1 := by linarith
      have : n' ≤ n + 1 := by exact_mod_cast this
      omega
    have heven := h.tie (.inr (by linarith))
    have heven' := h'.tie (.inl (by linarith))
    omega
  · exact heq
  · have hgap : (n' : ℚ) + 1 ≤ n := by exact_mod_cast hlt
    have hhigh := h'.high
    have hlow := h.low
    have hsucc : n = n' + 1 := by
      have : (n : ℚ) ≤ n' + 1 := by linarith
      have : n ≤ n' + 1 := by exact_mod_cast this
      omega
    have heven := h'.tie (.inr (by linarith))
    have heven' := h.tie (.inl (by linarith))
    omega

/-- Rounding does not pass an integer from below. -/
theorem NearestTo.le_of_le {x : ℚ} {n bound : Nat} (h : NearestTo x n) (hx : x ≤ bound) :
    n ≤ bound := by
  have hlow := h.low
  have hlt : (n : ℚ) < (bound + 1 : Nat) := by
    rw [Nat.cast_succ]
    linarith
  exact Nat.lt_succ_iff.mp (Nat.cast_lt.mp hlt)

/-- Rounding does not pass an integer from above. -/
theorem NearestTo.le_of_ge {x : ℚ} {n bound : Nat} (h : NearestTo x n) (hx : bound ≤ x) :
    bound ≤ n := by
  have hhigh := h.high
  have hlt : (bound : ℚ) < (n + 1 : Nat) := by
    rw [Nat.cast_succ]
    linarith
  exact Nat.lt_succ_iff.mp (Nat.cast_lt.mp hlt)

theorem roundQuotient_nearest (num : Nat) {den : Nat} (h : 0 < den) :
    NearestTo (num / den) (roundQuotient num den) := by
  have hden : (0 : ℚ) < den := by exact_mod_cast h
  have hdivision : (num : ℚ) = den * (num / den : Nat) + (num % den : Nat) := by
    exact_mod_cast (Nat.div_add_mod num den).symm
  have hquotient : (num : ℚ) / den = (num / den : Nat) + (num % den : Nat) / den := by
    rw [hdivision]
    field_simp
  have hrest : (0 : ℚ) ≤ (num % den : Nat) / den := by positivity
  have hsucc : ((num / den + 1 : Nat) : ℚ) = (num / den : Nat) + 1 := Nat.cast_succ _
  rw [hquotient]
  unfold roundQuotient
  dsimp only
  split
  · next hlow =>
    have hhalf : ((num % den : Nat) : ℚ) / den < 1 / 2 := by
      rw [div_lt_div_iff₀ hden two_pos]
      exact_mod_cast (by omega : num % den * 2 < 1 * den)
    refine ⟨by linarith, by linarith, ?_⟩
    rintro (htie | htie) <;> exfalso <;> linarith
  · next hlow =>
    have hhalf : (1 / 2 : ℚ) ≤ (num % den : Nat) / den := by
      rw [div_le_div_iff₀ two_pos hden]
      exact_mod_cast (by omega : 1 * den ≤ num % den * 2)
    have hone : ((num % den : Nat) : ℚ) / den < 1 := by
      rw [div_lt_one hden]
      exact_mod_cast Nat.mod_lt num h
    split
    · next hhigh =>
      have hmore : (1 / 2 : ℚ) < (num % den : Nat) / den := by
        rw [div_lt_div_iff₀ two_pos hden]
        exact_mod_cast (by omega : 1 * den < num % den * 2)
      refine ⟨by linarith, by linarith, ?_⟩
      rintro (htie | htie) <;> exfalso <;> linarith
    · next hhigh =>
      have hexact : ((num % den : Nat) : ℚ) / den = 1 / 2 := by
        rw [div_eq_div_iff hden.ne' two_ne_zero]
        exact_mod_cast (by omega : num % den * 2 = 1 * den)
      rw [hexact]
      rcases Nat.mod_two_eq_zero_or_one (num / den) with heven | hodd
      · rw [heven, Nat.add_zero]
        exact ⟨by linarith, le_refl _, fun _ => heven⟩
      · rw [hodd]
        exact ⟨by linarith, by linarith, fun _ => by omega⟩

namespace Binary64

/-! ## Binary numbers -/

theorem two_zpow_pos (k : Int) : (0 : ℚ) < 2 ^ k := zpow_pos two_pos k

theorem two_zpow_natCast (k : Nat) : (2 : ℚ) ^ (k : Int) = (2 ^ k : Nat) := by
  rw [zpow_natCast]
  push_cast
  rfl

theorem two_zpow_lt_iff {j k : Int} : (2 : ℚ) ^ j < 2 ^ k ↔ j < k :=
  zpow_lt_zpow_iff_right₀ one_lt_two

variable {num den : Nat}

/-- The leading bit of a quotient is at the greatest power of two that is not above it. -/
theorem leadingBit_spec (hnum : 0 < num) (hden : 0 < den) :
    (2 : ℚ) ^ leadingBit num den ≤ num / den ∧ (num / den : ℚ) < 2 ^ (leadingBit num den + 1) := by
  have hdenCast : (0 : ℚ) < den := by exact_mod_cast hden
  have hnumLow : (2 : ℚ) ^ (num.log2 : Int) ≤ num := by
    exact_mod_cast Nat.log2_self_le hnum.ne'
  have hnumHigh : (num : ℚ) < 2 ^ ((num.log2 : Int) + 1) := by
    exact_mod_cast Nat.lt_log2_self
  have hdenLow : (2 : ℚ) ^ (den.log2 : Int) ≤ den := by
    exact_mod_cast Nat.log2_self_le hden.ne'
  have hdenHigh : (den : ℚ) < 2 ^ ((den.log2 : Int) + 1) := by
    exact_mod_cast Nat.lt_log2_self
  have hguess : scaleUp den ((num.log2 : Int) - den.log2) ≤ scaleUp num (-((num.log2 : Int) - den.log2)) ↔
      (2 : ℚ) ^ ((num.log2 : Int) - den.log2) ≤ num / den := by
    have hpositive : (0 : ℚ) < scaleUp den ((num.log2 : Int) - den.log2) := by
      rw [scaleUp_cast]
      positivity
    rw [← Nat.cast_le (α := ℚ), ← one_le_div hpositive, scaleUp_div_scaleUp, zpow_neg,
      ← div_eq_mul_inv, one_le_div (two_zpow_pos _)]
  unfold leadingBit
  dsimp only
  split
  · next hle =>
    refine ⟨hguess.mp hle, ?_⟩
    rw [div_lt_iff₀ hdenCast]
    calc (num : ℚ) < 2 ^ ((num.log2 : Int) + 1) := hnumHigh
      _ = 2 ^ ((num.log2 : Int) - den.log2 + 1) * 2 ^ (den.log2 : Int) := by
          rw [← zpow_add₀ two_ne_zero]
          congr 1
          ring
      _ ≤ 2 ^ ((num.log2 : Int) - den.log2 + 1) * den :=
          mul_le_mul_of_nonneg_left hdenLow (two_zpow_pos _).le
  · next hgt =>
    have hlt : (num / den : ℚ) < 2 ^ ((num.log2 : Int) - den.log2) := by
      rw [← not_le, ← hguess]
      exact hgt
    refine ⟨?_, by rwa [sub_add_cancel]⟩
    rw [le_div_iff₀ hdenCast]
    calc (2 : ℚ) ^ ((num.log2 : Int) - den.log2 - 1) * den
        ≤ 2 ^ ((num.log2 : Int) - den.log2 - 1) * 2 ^ ((den.log2 : Int) + 1) :=
          mul_le_mul_of_nonneg_left hdenHigh.le (two_zpow_pos _).le
      _ = 2 ^ (num.log2 : Int) := by
          rw [← zpow_add₀ two_ne_zero]
          congr 1
          ring
      _ ≤ num := hnumLow

theorem leadingBit_eq (hnum : 0 < num) (hden : 0 < den) {k : Int} (hlow : (2 : ℚ) ^ k ≤ num / den)
    (hhigh : (num / den : ℚ) < 2 ^ (k + 1)) : leadingBit num den = k := by
  obtain ⟨hleast, hmost⟩ := leadingBit_spec hnum hden
  have hlt : leadingBit num den < k + 1 := two_zpow_lt_iff.mp (hleast.trans_lt hhigh)
  have hgt : k < leadingBit num den + 1 := two_zpow_lt_iff.mp (hlow.trans_lt hmost)
  omega

/-- A quotient is rounded to the integer nearest to it at the scale of the result. -/
theorem ofRatio_eq (negative : Bool) (hnum : 0 < num) (hden : 0 < den) {exponent : Int}
    {significand : Nat}
    (hexponent : max (leadingBit num den - fractionBits) leastExponent = exponent)
    (hnearest : NearestTo (num / den * 2 ^ (-exponent)) significand) :
    ofRatio negative num den = pack negative significand exponent := by
  have hscaled : 0 < scaleUp den exponent := by
    rw [scaleUp, Nat.shiftLeft_eq]
    exact Nat.mul_pos hden (Nat.two_pow_pos _)
  have hrounded := roundQuotient_nearest (scaleUp num (-exponent)) hscaled
  rw [scaleUp_div_scaleUp] at hrounded
  unfold ofRatio
  rw [if_neg hnum.ne']
  dsimp only
  rw [hexponent, hrounded.unique hnearest]

/-- The significand and exponent of a finite number in its one form: 53 bits, or the least exponent. -/
structure Canonical (significand : Nat) (exponent : Int) : Prop where
  bits : significand < 2 ^ (fractionBits + 1)
  full : 2 ^ fractionBits ≤ significand ∨ exponent = leastExponent
  least : leastExponent ≤ exponent
  greatest : exponent ≤ greatestExponent

/-- The scale at which a quotient is rounded, and what it is rounded to there. -/
theorem ofRatio_cases (negative : Bool) (hnum : 0 < num) (hden : 0 < den) :
    ∃ significand exponent, ofRatio negative num den = pack negative significand exponent ∧
      exponent = max (leadingBit num den - fractionBits) leastExponent ∧
      NearestTo (num / den * 2 ^ (-exponent)) significand ∧
      significand ≤ 2 ^ (fractionBits + 1) ∧
      (2 ^ fractionBits ≤ significand ∨ exponent = leastExponent) := by
  obtain ⟨hlow, hhigh⟩ := leadingBit_spec hnum hden
  generalize hexponent : max (leadingBit num den - fractionBits) leastExponent = exponent
  have hscaled : 0 < scaleUp den exponent := by
    rw [scaleUp, Nat.shiftLeft_eq]
    exact Nat.mul_pos hden (Nat.two_pow_pos _)
  have hnearest := roundQuotient_nearest (scaleUp num (-exponent)) hscaled
  rw [scaleUp_div_scaleUp] at hnearest
  refine ⟨_, exponent, ofRatio_eq negative hnum hden hexponent hnearest, rfl, hnearest, ?bits, ?full⟩
  case bits =>
    have hbelow : (num / den : ℚ) * 2 ^ (-exponent) ≤ (2 ^ (fractionBits + 1) : Nat) := by
      calc (num / den : ℚ) * 2 ^ (-exponent)
          ≤ 2 ^ (leadingBit num den + 1) * 2 ^ (-exponent) :=
            mul_le_mul_of_nonneg_right hhigh.le (two_zpow_pos _).le
        _ = 2 ^ (leadingBit num den + 1 - exponent) := by
            rw [← zpow_add₀ two_ne_zero, sub_eq_add_neg]
        _ ≤ 2 ^ ((fractionBits + 1 : Nat) : Int) :=
            zpow_le_zpow_right₀ one_le_two (by push_cast; omega)
        _ = (2 ^ (fractionBits + 1) : Nat) := two_zpow_natCast _
    exact hnearest.le_of_le hbelow
  case full =>
    by_cases hleast : exponent = leastExponent
    · exact .inr hleast
    · have hplace : exponent = leadingBit num den - fractionBits := by omega
      have habove : (2 ^ fractionBits : Nat) ≤ (num / den : ℚ) * 2 ^ (-exponent) := by
        calc ((2 ^ fractionBits : Nat) : ℚ) = 2 ^ (fractionBits : Int) := (two_zpow_natCast _).symm
          _ = 2 ^ leadingBit num den * 2 ^ (-exponent) := by
              rw [← zpow_add₀ two_ne_zero, hplace]
              congr 1
              omega
          _ ≤ num / den * 2 ^ (-exponent) := mul_le_mul_of_nonneg_right hlow (two_zpow_pos _).le
      exact .inl (hnearest.le_of_ge habove)

/-- A finite quotient is in its one form. -/
theorem canonical_ofRatio {negative sign : Bool} {significand : Nat} {exponent : Int}
    (hden : 0 < den) (h : ofRatio negative num den = .finite sign significand exponent) :
    Canonical significand exponent := by
  rcases Nat.eq_zero_or_pos num with rfl | hnum
  · obtain ⟨-, rfl, rfl⟩ : negative = sign ∧ 0 = significand ∧ leastExponent = exponent := by
      simpa [ofRatio, zero] using h
    exact ⟨by decide, .inr rfl, le_refl _, by decide⟩
  · obtain ⟨m, e, hpack, hmax, -, hbits, hfull⟩ := ofRatio_cases negative hnum hden
    have hleast : leastExponent ≤ e := by omega
    rw [hpack] at h
    unfold pack at h
    by_cases hcarried : m = Nat.pow 2 (fractionBits + 1)
    · simp only [hcarried, if_true] at h
      split at h
      · cases h
      · next hrange =>
        cases h
        exact ⟨by decide, .inl (le_refl _), by omega, by omega⟩
    · simp only [hcarried, if_false] at h
      split at h
      · cases h
      · next hrange =>
        cases h
        exact ⟨lt_of_le_of_ne hbits hcarried, hfull, hleast, by omega⟩

end Binary64

end Screencast
