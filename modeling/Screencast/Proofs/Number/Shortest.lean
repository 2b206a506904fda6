import Mathlib.Data.Nat.Cast.Order.Field
import Screencast.Number.Decimal
import Screencast.Proofs.Number.Bounds
import Screencast.Proofs.Text.Digits

/-!
# Shortest decimals

A decimal in the neighbourhood of a binary number is rounded to that number: `ofRatio_of_near`.  The
neighbourhood is wider than the distance of decimals with seventeen digits, so that the search for the
shortest decimal always finds one, and `ofDecimal_shortest` reads it back.
-/

namespace Screencast

namespace Binary64

open Decimal

variable {m : Nat} {e : Int} {x : ℚ}

/-! ## Neighbourhoods -/

/-- A positive number in the neighbourhood of `m · 2 ^ e`. -/
structure Near (m : Nat) (e : Int) (x : ℚ) : Prop where
  low : ((neighbourhood m e).low : ℚ) * 2 ^ (e - 2) ≤ x
  high : x ≤ (neighbourhood m e).high * 2 ^ (e - 2)
  /-- The ends belong to it for an even significand only. -/
  inside : (neighbourhood m e).closed = false →
    ((neighbourhood m e).low : ℚ) * 2 ^ (e - 2) < x ∧ x < (neighbourhood m e).high * 2 ^ (e - 2)

theorem two_zpow_sub_two (e : Int) : (2 : ℚ) ^ (e - 2) = 2 ^ e / 4 := by
  rw [zpow_sub₀ two_ne_zero]
  norm_num

/-- A number is what it is at any scale. -/
theorem scaled_mul (x : ℚ) (e : Int) : x * 2 ^ (-e) * 2 ^ e = x := by
  rw [mul_assoc, ← zpow_add₀ two_ne_zero, neg_add_cancel, zpow_zero, mul_one]

/-- The lower end lies half a unit below the number, and a quarter below a power of two. -/
theorem neighbourhood_low (hm : 0 < m) :
    ((neighbourhood m e).low : ℚ) = 4 * m -
      (if m = 2 ^ fractionBits ∧ leastExponent < e then 1 else 2) := by
  unfold neighbourhood
  simp only [Nat.pow_eq]
  split
  · rw [Nat.cast_sub (by omega)]
    push_cast
    rfl
  · rw [Nat.cast_sub (by omega)]
    push_cast
    rfl

theorem neighbourhood_high : ((neighbourhood m e).high : ℚ) = 4 * m + 2 := by
  unfold neighbourhood
  push_cast
  rfl

theorem neighbourhood_middle : ((neighbourhood m e).middle : ℚ) * 2 ^ (e - 2) = m * 2 ^ e := by
  rw [two_zpow_sub_two]
  simp only [neighbourhood]
  push_cast
  ring

/-- A number in a neighbourhood is rounded to its middle, at the scale of the middle. -/
theorem Near.nearestTo (h : Near m e x) (hm : 0 < m) : NearestTo (x * 2 ^ (-e)) m := by
  have hscale := (scaled_mul x e).symm
  have hpositive := two_zpow_pos e
  have hlow := h.low
  have hhigh := h.high
  have hinside := h.inside
  have hlowEnd : (4 * m - 2 : ℚ) ≤ (neighbourhood m e).low := by
    rw [neighbourhood_low hm]
    split <;> linarith
  rw [two_zpow_sub_two] at hlow hhigh hinside
  rw [neighbourhood_high] at hhigh hinside
  generalize x * 2 ^ (-e) = y at hscale ⊢
  rw [hscale] at hlow hhigh hinside
  have hy : (m : ℚ) - 1 / 2 ≤ y := by
    by_contra hlt
    nlinarith
  have hy' : y ≤ m + 1 / 2 := by
    by_contra hlt
    nlinarith
  refine ⟨hy, hy', fun htie => ?_⟩
  -- an odd significand has an open neighbourhood, in which there is no tie
  by_contra hodd
  have hopen : (neighbourhood m e).closed = false := by
    simp only [neighbourhood, decide_eq_false_iff_not]
    exact hodd
  obtain ⟨hleft, hright⟩ := hinside hopen
  rcases htie with heq | heq
  · rw [heq] at hleft
    nlinarith
  · rw [heq] at hright
    nlinarith

theorem Near.pos (h : Near m e x) (hm : 0 < m) : 0 < x := by
  have hlow := h.low
  have hend : (1 : ℚ) ≤ (neighbourhood m e).low := by
    have hone : (1 : ℚ) ≤ m := by exact_mod_cast hm
    rw [neighbourhood_low hm]
    split <;> linarith
  have hpositive := two_zpow_pos (e - 2)
  nlinarith

/-- The number itself lies between the ends of its neighbourhood. -/
theorem low_lt_high (hm : 0 < m) :
    ((neighbourhood m e).low : ℚ) * 2 ^ (e - 2) < m * 2 ^ e ∧
      (m : ℚ) * 2 ^ e < (neighbourhood m e).high * 2 ^ (e - 2) := by
  have hpositive := two_zpow_pos e
  have hlow : ((neighbourhood m e).low : ℚ) < 4 * m := by
    rw [neighbourhood_low hm]
    split <;> linarith
  have hleft : ((neighbourhood m e).low : ℚ) * 2 ^ (e - 2) < m * 2 ^ e := by
    rw [two_zpow_sub_two]
    nlinarith
  have hright : (m : ℚ) * 2 ^ e < (neighbourhood m e).high * 2 ^ (e - 2) := by
    rw [two_zpow_sub_two, neighbourhood_high]
    nlinarith
  exact ⟨hleft, hright⟩

/-- What is not in the neighbourhood lies beyond one of its ends. -/
theorem le_low_of_not_near (hm : 0 < m) (hx : x ≤ m * 2 ^ e) (h : ¬ Near m e x) :
    x ≤ (neighbourhood m e).low * 2 ^ (e - 2) := by
  by_contra hlt
  rw [not_le] at hlt
  have hhigh := hx.trans_lt (low_lt_high hm).2
  exact h ⟨hlt.le, hhigh.le, fun _ => ⟨hlt, hhigh⟩⟩

theorem high_le_of_not_near (hm : 0 < m) (hx : m * 2 ^ e ≤ x) (h : ¬ Near m e x) :
    (neighbourhood m e).high * 2 ^ (e - 2) ≤ x := by
  by_contra hlt
  rw [not_le] at hlt
  have hlow := (low_lt_high hm).1.trans_le hx
  exact h ⟨hlow.le, hlt.le, fun _ => ⟨hlow, hlt⟩⟩

/-! ## Rounding into a number -/

theorem pack_of_lt (negative : Bool) (hbits : m < 2 ^ (fractionBits + 1))
    (hrange : e ≤ greatestExponent) : pack negative m e = .finite negative m e := by
  have hcarried : m ≠ Nat.pow 2 (fractionBits + 1) := Nat.ne_of_lt hbits
  simp only [pack, hcarried, if_false]
  rw [if_neg (not_lt.mpr hrange)]

/-- A significand that was carried is the least one of the next exponent. -/
theorem pack_carried (negative : Bool) (hrange : e ≤ greatestExponent) :
    pack negative (2 ^ (fractionBits + 1)) (e - 1) = .finite negative (2 ^ fractionBits) e := by
  have hexponent : e - 1 + 1 = e := by omega
  simp only [pack, Nat.pow_eq, if_true, hexponent]
  rw [if_neg (not_lt.mpr hrange)]

/-- What is near to a number lies below the next power of two but one. -/
theorem Near.lt_two_zpow (h : Near m e x) (hcanonical : Canonical m e) (hm : 0 < m) :
    x < 2 ^ (e + 53) := by
  have hhigh := (h.nearestTo hm).high
  have hbits : (m : ℚ) + 1 ≤ 2 ^ (53 : Nat) := by exact_mod_cast hcanonical.bits
  rw [← scaled_mul x e, zpow_add₀ two_ne_zero, mul_comm (2 ^ e : ℚ)]
  refine mul_lt_mul_of_pos_right ?_ (two_zpow_pos e)
  rw [show (53 : Int) = (53 : Nat) from rfl, zpow_natCast]
  linarith

/-- The lower end of a neighbourhood, at the scale of the number. -/
theorem Near.low_scaled (h : Near m e x) (hm : 0 < m) (hlarge : leastExponent < e) :
    (m : ℚ) - (if m = 2 ^ fractionBits then 1 / 4 else 1 / 2) ≤ x * 2 ^ (-e) := by
  have hpositive := two_zpow_pos e
  have hlow := h.low
  rw [neighbourhood_low hm, two_zpow_sub_two, ← scaled_mul x e] at hlow
  generalize x * 2 ^ (-e) = y at hlow ⊢
  simp only [hlarge, and_true] at hlow
  by_contra hlt
  split at hlow
  · next hpower =>
    rw [if_pos hpower] at hlt
    nlinarith
  · next hpower =>
    rw [if_neg hpower] at hlt
    nlinarith

section

variable {num den : Nat} (negative : Bool) (hcanonical : Canonical m e) (hm : 0 < m)
  (hnum : 0 < num) (hden : 0 < den) (h : Near m e (num / den))

include hcanonical hm hnum hden h

/-- A quotient with its leading bit in its place is rounded at the scale of the number. -/
theorem ofRatio_of_near_of_exponent
    (hexponent : max (leadingBit num den - fractionBits) leastExponent = e) :
    ofRatio negative num den = .finite negative m e := by
  rw [ofRatio_eq negative hnum hden hexponent (h.nearestTo hm),
    pack_of_lt negative hcanonical.bits hcanonical.greatest]

/-- A quotient just below a power of two is rounded at a finer scale, and carried into it. -/
theorem ofRatio_of_near_below (hlarge : leastExponent < e)
    (hbelow : (num / den : ℚ) < 2 ^ (e + 52)) :
    ofRatio negative num den = .finite negative m e := by
  have hpositive := two_zpow_pos e
  have hfull : 2 ^ fractionBits ≤ m := hcanonical.full.resolve_right hlarge.ne'
  have hlow := h.low_scaled hm hlarge
  have hscaled : (num / den : ℚ) * 2 ^ (-e) < 2 ^ (52 : Nat) := by
    rw [← scaled_mul (num / den) e, zpow_add₀ two_ne_zero, mul_comm (2 ^ e : ℚ)] at hbelow
    exact lt_of_mul_lt_mul_right hbelow hpositive.le
  -- no other significand comes so close to the power
  obtain rfl : m = 2 ^ fractionBits := by
    by_contra hne
    have hmore : ((2 ^ 52 + 1 : Nat) : ℚ) ≤ m := by
      exact_mod_cast lt_of_le_of_ne hfull (Ne.symm hne)
    rw [if_neg hne] at hlow
    push_cast at hmore
    linarith
  have hpower : ((2 ^ fractionBits : Nat) : ℚ) = 2 ^ (52 : Nat) := by
    simp only [fractionBits]
    push_cast
    rfl
  rw [if_pos rfl, hpower] at hlow
  have hquotient : (num / den : ℚ) * 2 ^ (-(e - 1)) = 2 * (num / den * 2 ^ (-e)) := by
    rw [neg_sub, sub_eq_neg_add, zpow_add₀ two_ne_zero]
    ring
  have hcarried : NearestTo (num / den * 2 ^ (-(e - 1))) (2 ^ (fractionBits + 1)) := by
    have hdouble : ((2 ^ (fractionBits + 1) : Nat) : ℚ) = 2 * 2 ^ (52 : Nat) := by
      simp only [fractionBits]
      push_cast
      norm_num
    rw [hquotient]
    refine ⟨?_, ?_, fun _ => by decide⟩
    · rw [hdouble]
      linarith
    · rw [hdouble]
      linarith
  have hleadingBit : leadingBit num den = e + 51 := by
    refine leadingBit_eq hnum hden ?_ ?_
    · rw [← scaled_mul (num / den) e, zpow_add₀ two_ne_zero, mul_comm (2 ^ e : ℚ)]
      refine mul_le_mul_of_nonneg_right ?_ hpositive.le
      norm_num at hlow ⊢
      linarith
    · rw [show e + 51 + 1 = e + 52 by omega]
      exact hbelow
  have hexponent : max (leadingBit num den - fractionBits) leastExponent = e - 1 := by
    simp only [fractionBits]
    omega
  rw [ofRatio_eq negative hnum hden hexponent hcarried,
    pack_carried negative hcanonical.greatest]

end

/-- What is near to a number is rounded to it. -/
theorem ofRatio_of_near {num den : Nat} (negative : Bool) (hcanonical : Canonical m e) (hm : 0 < m)
    (hden : 0 < den) (h : Near m e (num / den)) :
    ofRatio negative num den = .finite negative m e := by
  have hnum : 0 < num := by
    have hpositive := h.pos hm
    rcases Nat.eq_zero_or_pos num with rfl | hnum
    · rw [Nat.cast_zero, zero_div] at hpositive
      exact absurd hpositive (lt_irrefl 0)
    · exact hnum
  have habove := h.lt_two_zpow hcanonical hm
  have hleast := hcanonical.least
  have hmost : leadingBit num den < e + 53 :=
    two_zpow_lt_iff.mp ((leadingBit_spec hnum hden).1.trans_lt habove)
  by_cases hsmall : e = leastExponent
  · refine ofRatio_of_near_of_exponent negative hcanonical hm hnum hden h ?_
    simp only [fractionBits]
    omega
  · by_cases hbelow : (num / den : ℚ) < 2 ^ (e + 52)
    · exact ofRatio_of_near_below negative hcanonical hm hnum hden h (by omega) hbelow
    · have hleadingBit : leadingBit num den = e + 52 :=
        leadingBit_eq hnum hden (not_lt.mp hbelow) (by rwa [show e + 52 + 1 = e + 53 by omega])
      refine ofRatio_of_near_of_exponent negative hcanonical hm hnum hden h ?_
      simp only [fractionBits]
      omega

end Binary64

/-! ## Decimals -/

namespace Decimal

/-- The number that a decimal stands for. -/
def value (d : Decimal) : ℚ := d.significand * 10 ^ d.exponent

theorem ten_zpow_pos (k : Int) : (0 : ℚ) < 10 ^ k := zpow_pos (by norm_num) k

/-- The leading place is that of a power of ten that is not above the quotient. -/
theorem ten_zpow_leadingPlace_le {num den : Nat} (hnum : 0 < num) (hden : 0 < den) :
    (10 : ℚ) ^ leadingPlace num den ≤ num / den := by
  have hdenCast : (0 : ℚ) < den := by exact_mod_cast hden
  unfold leadingPlace
  split
  · next hle =>
    have hpower := Text.pow_length_toDigits_le (Nat.div_pos hle hden)
    have hlength : 0 < (Nat.toDigits 10 (num / den)).length := Nat.length_toDigits_pos
    rw [show ((Nat.toDigits 10 (num / den)).length : Int) - 1
      = ((Nat.toDigits 10 (num / den)).length - 1 : Nat) by omega, zpow_natCast]
    calc (10 : ℚ) ^ ((Nat.toDigits 10 (num / den)).length - 1) ≤ (num / den : Nat) := by
          exact_mod_cast hpower
      _ ≤ num / den := Nat.cast_div_le
  · dsimp only
    split
    · next hexact =>
      have hlength : 0 < (Nat.toDigits 10 (den / num)).length := Nat.length_toDigits_pos
      generalize (Nat.toDigits 10 (den / num)).length = zeros at hexact hlength ⊢
      have hnumCast : (0 : ℚ) < num := by exact_mod_cast hnum
      rw [show (1 - zeros : Int) = -((zeros - 1 : Nat) : Int) by omega, zpow_neg, zpow_natCast,
        hexact]
      simp only [Nat.pow_eq]
      push_cast
      rw [div_mul_eq_div_div, div_self hnumCast.ne', one_div]
    · have hpower := Text.lt_pow_length_toDigits (den / num)
      generalize (Nat.toDigits 10 (den / num)).length = zeros at hpower ⊢
      have hbelow : den < 10 ^ zeros * num := (Nat.div_lt_iff_lt_mul hnum).mp hpower
      have hbelowCast : (den : ℚ) ≤ 10 ^ zeros * num := by exact_mod_cast hbelow.le
      rw [zpow_neg, zpow_natCast, inv_le_iff_one_le_mul₀ (by positivity), div_mul_eq_mul_div,
        one_le_div hdenCast, mul_comm]
      exact hbelowCast

/-- Zeros at the end of the significand do not count. -/
theorem value_trim (fuel : Nat) (d : Decimal) : (trim fuel d).value = d.value := by
  induction fuel generalizing d with
  | zero => rfl
  | succ fuel ih =>
      rw [trim]
      split
      · next hzero =>
        rw [ih]
        have hten : (d.significand : ℚ) = 10 * (d.significand / 10 : Nat) := by
          exact_mod_cast (by omega : d.significand = 10 * (d.significand / 10))
        simp only [value]
        rw [hten, zpow_add₀ (by norm_num), zpow_one]
        ring
      · rfl

variable {place : Int} {num den : Nat}

theorem ten_zpow_eq (place : Int) :
    (10 : ℚ) ^ place = 10 ^ place.toNat / 10 ^ (-place).toNat := by
  rcases le_total 0 place with h | h
  · rw [Int.toNat_of_nonpos (by omega : -place ≤ 0), pow_zero, div_one, ← zpow_natCast,
      Int.toNat_of_nonneg h]
  · rw [Int.toNat_of_nonpos h, pow_zero, one_div, ← zpow_natCast,
      Int.toNat_of_nonneg (by omega : 0 ≤ -place), zpow_neg, inv_inv]

/-- A comparison of a point of the grid with a multiple of the quotient. -/
theorem scaleTen_le_scaleTen (hden : 0 < den) {c q : Nat} :
    scaleTen (c * den) place ≤ scaleTen (q * num) (-place) ↔
      (c : ℚ) * 10 ^ place ≤ q * (num / den) := by
  have hdenCast : (0 : ℚ) < den := by exact_mod_cast hden
  rw [ten_zpow_eq, mul_div_assoc', mul_div_assoc', div_le_div_iff₀ (by positivity) hdenCast,
    ← Nat.cast_le (α := ℚ)]
  simp only [scaleTen, Nat.pow_eq, Nat.cast_mul, Nat.cast_pow, Nat.cast_ofNat]
  rw [mul_right_comm]

/-- The same comparison the other way round. -/
theorem scaleTen_ge_scaleTen (hden : 0 < den) {c q : Nat} :
    scaleTen (q * num) (-place) ≤ scaleTen (c * den) place ↔
      (q : ℚ) * (num / den) ≤ c * 10 ^ place := by
  have hdenCast : (0 : ℚ) < den := by exact_mod_cast hden
  rw [ten_zpow_eq, mul_div_assoc', mul_div_assoc', div_le_div_iff₀ hdenCast (by positivity),
    ← Nat.cast_le (α := ℚ)]
  simp only [scaleTen, Nat.pow_eq, Nat.cast_mul, Nat.cast_pow, Nat.cast_ofNat]
  rw [mul_right_comm (c : ℚ)]

end Decimal

namespace Binary64

open Decimal

variable {m : Nat} {e : Int} {count : Nat}

/-- The place of the last of so many digits. -/
def lastPlace (m : Nat) (e : Int) (count : Nat) : Int :=
  leadingPlace ((neighbourhood m e).middle * (magnitude 1 (e - 2)).1) (magnitude 1 (e - 2)).2
    - count + 1

/-- A point of the grid of a place, and a number of quarters of the last binary place, brought to one
scale. -/
def onGrid (e place : Int) (c : Nat) : Nat := scaleTen (c * (magnitude 1 (e - 2)).2) place

def quarters (e place : Int) (q : Nat) : Nat := scaleTen (q * (magnitude 1 (e - 2)).1) (-place)

/-- Whether a point of the grid lies in the neighbourhood. -/
def within (m : Nat) (e place : Int) (c : Nat) : Bool :=
  if (neighbourhood m e).closed then
    quarters e place (neighbourhood m e).low ≤ onGrid e place c &&
      onGrid e place c ≤ quarters e place (neighbourhood m e).high
  else
    quarters e place (neighbourhood m e).low < onGrid e place c &&
      onGrid e place c < quarters e place (neighbourhood m e).high

/-- The last point of the grid that is not above the number. -/
def lowerPoint (m : Nat) (e place : Int) : Nat :=
  quarters e place (neighbourhood m e).middle / scaleTen (magnitude 1 (e - 2)).2 place

/-- Whether the point after it is nearer, or as near and even. -/
def upperNearer (m : Nat) (e place : Int) : Bool :=
  let below := quarters e place (neighbourhood m e).middle - onGrid e place (lowerPoint m e place)
  let above := onGrid e place (lowerPoint m e place + 1) - quarters e place (neighbourhood m e).middle
  above < below || (above = below && lowerPoint m e place % 2 = 1)

theorem withDigits_eq (m : Nat) (e : Int) (count : Nat) :
    withDigits m e count =
      if within m e (lastPlace m e count) (lowerPoint m e (lastPlace m e count)) then
        if within m e (lastPlace m e count) (lowerPoint m e (lastPlace m e count) + 1) &&
            upperNearer m e (lastPlace m e count) then
          some ⟨lowerPoint m e (lastPlace m e count) + 1, lastPlace m e count⟩
        else some ⟨lowerPoint m e (lastPlace m e count), lastPlace m e count⟩
      else if within m e (lastPlace m e count) (lowerPoint m e (lastPlace m e count) + 1) then
        some ⟨lowerPoint m e (lastPlace m e count) + 1, lastPlace m e count⟩
      else none := rfl

theorem magnitude_ratio (m : Nat) (e : Int) :
    ((magnitude m e).1 : ℚ) / (magnitude m e).2 = m * 2 ^ e := ofScaled_value m e

theorem onGrid_le_quarters {place : Int} {c q : Nat} :
    onGrid e place c ≤ quarters e place q ↔ (c : ℚ) * 10 ^ place ≤ q * 2 ^ (e - 2) := by
  have hden : 0 < (magnitude 1 (e - 2)).2 := scaleUp_pos one_pos _
  rw [onGrid, quarters, scaleTen_le_scaleTen hden, magnitude_ratio, Nat.cast_one, one_mul]

theorem quarters_le_onGrid {place : Int} {c q : Nat} :
    quarters e place q ≤ onGrid e place c ↔ (q : ℚ) * 2 ^ (e - 2) ≤ c * 10 ^ place := by
  have hden : 0 < (magnitude 1 (e - 2)).2 := scaleUp_pos one_pos _
  rw [onGrid, quarters, scaleTen_ge_scaleTen hden, magnitude_ratio, Nat.cast_one, one_mul]

theorem within_iff {place : Int} {c : Nat} :
    within m e place c = true ↔ Near m e (c * 10 ^ place) := by
  unfold within
  split
  · next hclosed =>
    rw [Bool.and_eq_true, decide_eq_true_iff, decide_eq_true_iff, quarters_le_onGrid,
      onGrid_le_quarters]
    refine ⟨fun ⟨hlow, hhigh⟩ => ⟨hlow, hhigh, fun hopen => ?_⟩, fun h => ⟨h.low, h.high⟩⟩
    rw [hclosed] at hopen
    cases hopen
  · next hopen =>
    rw [Bool.and_eq_true, decide_eq_true_iff, decide_eq_true_iff, ← not_le, ← not_le,
      quarters_le_onGrid, onGrid_le_quarters, not_le, not_le]
    refine ⟨fun ⟨hlow, hhigh⟩ => ⟨hlow.le, hhigh.le, fun _ => ⟨hlow, hhigh⟩⟩, fun h => ?_⟩
    exact h.inside (by simpa using hopen)

/-- The number lies between two neighbouring points of the grid. -/
theorem lowerPoint_spec (m : Nat) (e place : Int) :
    (lowerPoint m e place : ℚ) * 10 ^ place ≤ m * 2 ^ e ∧
      (m : ℚ) * 2 ^ e ≤ (lowerPoint m e place + 1 : Nat) * 10 ^ place := by
  have hunit : 0 < scaleTen (magnitude 1 (e - 2)).2 place :=
    Nat.mul_pos (scaleUp_pos one_pos _) (Nat.pow_pos (by decide))
  have hgrid (c : Nat) : onGrid e place c = c * scaleTen (magnitude 1 (e - 2)).2 place := by
    simp only [onGrid, scaleTen, Nat.mul_assoc]
  rw [← neighbourhood_middle, ← onGrid_le_quarters, ← quarters_le_onGrid, hgrid, hgrid]
  refine ⟨Nat.div_mul_le_self _ _, ?_⟩
  exact (Nat.lt_mul_of_div_lt (Nat.lt_succ_self _) hunit).le

/-- What is found with a count of digits is in the neighbourhood. -/
theorem near_of_withDigits {d : Decimal} (h : withDigits m e count = some d) : Near m e d.value := by
  rw [withDigits_eq] at h
  split at h
  · next hlower =>
    split at h
    · next hupper =>
      rw [Bool.and_eq_true] at hupper
      cases h
      exact within_iff.mp hupper.1
    · cases h
      exact within_iff.mp hlower
  · split at h
    · next hupper =>
      cases h
      exact within_iff.mp hupper
    · cases h

/-- Seventeen digits are enough: the grid is finer than the neighbourhood is wide. -/
theorem withDigits_seventeen (hcanonical : Canonical m e) (hm : 0 < m) :
    withDigits m e 17 ≠ none := by
  intro hnone
  have hpositive := two_zpow_pos e
  have hmiddle : (((neighbourhood m e).middle * (magnitude 1 (e - 2)).1 : Nat) : ℚ)
      / (magnitude 1 (e - 2)).2 = m * 2 ^ e := by
    rw [Nat.cast_mul, mul_div_assoc, magnitude_ratio, Nat.cast_one, one_mul, neighbourhood_middle]
  have hleading : (10 : ℚ) ^ (lastPlace m e 17) * 10 ^ (16 : Nat) ≤ m * 2 ^ e := by
    rw [← hmiddle, ← zpow_natCast, ← zpow_add₀ (by norm_num)]
    have hnum : 0 < (neighbourhood m e).middle * (magnitude 1 (e - 2)).1 :=
      Nat.mul_pos (Nat.mul_pos (by decide) hm) (scaleUp_pos one_pos _)
    have hplace := ten_zpow_leadingPlace_le hnum (scaleUp_pos one_pos (-(e - 2)))
    refine le_trans (le_of_eq ?_) hplace
    congr 1
    simp only [lastPlace, magnitude]
    omega
  obtain ⟨hbelow, habove⟩ := lowerPoint_spec m e (lastPlace m e 17)
  have houtside : ¬ Near m e (lowerPoint m e (lastPlace m e 17) * 10 ^ lastPlace m e 17) ∧
      ¬ Near m e ((lowerPoint m e (lastPlace m e 17) + 1 : Nat) * 10 ^ lastPlace m e 17) := by
    rw [← within_iff, ← within_iff]
    rw [withDigits_eq] at hnone
    split at hnone
    · split at hnone <;> cases hnone
    · next hlower =>
      split at hnone
      · cases hnone
      · next hupper => exact ⟨hlower, hupper⟩
  generalize lowerPoint m e (lastPlace m e 17) = lower at hbelow habove houtside
  generalize (10 : ℚ) ^ (lastPlace m e 17) = unit at hleading hbelow habove houtside
  have hlow := le_low_of_not_near hm hbelow houtside.1
  have hhigh := high_le_of_not_near hm habove houtside.2
  rw [neighbourhood_low hm, two_zpow_sub_two] at hlow
  rw [neighbourhood_high, two_zpow_sub_two] at hhigh
  push_cast at hhigh
  have hbits : (m : ℚ) < 2 ^ (53 : Nat) := by exact_mod_cast hcanonical.bits
  split at hlow
  · next hpower =>
    have hm52 : (m : ℚ) = 2 ^ (52 : Nat) := by exact_mod_cast hpower.1
    rw [hm52] at hleading hlow hhigh
    nlinarith
  · nlinarith

/-- The shortest decimal is in the neighbourhood. -/
theorem near_shortest (hcanonical : Canonical m e) (hm : 0 < m) : Near m e (shortest m e).value := by
  unfold shortest
  simp only [value_trim]
  cases hfound : (List.range 17).findSome? fun n => withDigits m e (n + 1) with
  | none =>
      have hnone := List.findSome?_eq_none_iff.mp hfound 16 (by decide)
      exact absurd hnone (withDigits_seventeen hcanonical hm)
  | some d =>
      obtain ⟨n, -, hn⟩ := List.exists_of_findSome?_eq_some hfound
      exact near_of_withDigits hn

theorem Near.significand_pos {d : Decimal} (h : Near m e d.value) (hm : 0 < m) :
    0 < d.significand := by
  have hpositive := h.pos hm
  rcases Nat.eq_zero_or_pos d.significand with hzero | hsignificand
  · rw [value, hzero, Nat.cast_zero, zero_mul] at hpositive
    exact absurd hpositive (lt_irrefl 0)
  · exact hsignificand

/-- What is near to a number is not far beyond the range of the format. -/
theorem Near.le_greatest {x : ℚ} (h : Near m e x) (hcanonical : Canonical m e) :
    x ≤ 2 ^ ((1024 : Nat) : Int) := by
  have hrange := hcanonical.greatest
  have hbits : (m : ℚ) + 1 ≤ 2 ^ (53 : Nat) := by exact_mod_cast hcanonical.bits
  have hhigh : ((neighbourhood m e).high : ℚ) ≤ 2 ^ ((55 : Nat) : Int) := by
    rw [neighbourhood_high, zpow_natCast]
    linarith
  calc x ≤ (neighbourhood m e).high * 2 ^ (e - 2) := h.high
    _ ≤ 2 ^ ((55 : Nat) : Int) * 2 ^ (e - 2) :=
        mul_le_mul_of_nonneg_right hhigh (two_zpow_pos _).le
    _ = 2 ^ (((55 : Nat) : Int) + (e - 2)) := (zpow_add₀ two_ne_zero _ _).symm
    _ ≤ 2 ^ ((1024 : Nat) : Int) := by
        simp only [greatestExponent] at hrange
        exact zpow_le_zpow_right₀ one_le_two (by omega)

theorem Near.least_le {x : ℚ} (h : Near m e x) (hcanonical : Canonical m e) (hm : 0 < m) :
    2 ^ (-((1076 : Nat) : Int)) ≤ x := by
  have hrange := hcanonical.least
  have hone : (1 : ℚ) ≤ m := by exact_mod_cast hm
  have hlow : (1 : ℚ) ≤ (neighbourhood m e).low := by
    rw [neighbourhood_low hm]
    split <;> linarith
  calc (2 : ℚ) ^ (-((1076 : Nat) : Int)) ≤ 2 ^ (e - 2) := by
        simp only [leastExponent] at hrange
        exact zpow_le_zpow_right₀ one_le_two (by omega)
    _ ≤ (neighbourhood m e).low * 2 ^ (e - 2) := le_mul_of_one_le_left (two_zpow_pos _).le hlow
    _ ≤ x := h.low

/-- A decimal near to a number is read as that number. -/
theorem ofDecimal_of_near (negative : Bool) (hcanonical : Canonical m e) (hm : 0 < m) {d : Decimal}
    (h : Near m e d.value) : ofDecimal negative d.significand d.exponent = .finite negative m e := by
  have hdigits := h.significand_pos hm
  obtain ⟨digits, exponent⟩ := d
  simp only [value] at h hdigits ⊢
  have hleast : (10 : ℚ) ^ (((Nat.toDigits 10 digits).length : Int) - 1 + exponent)
      ≤ digits * 10 ^ exponent := by
    have hlength : 0 < (Nat.toDigits 10 digits).length := Nat.length_toDigits_pos
    rw [zpow_add₀ (by norm_num), show ((Nat.toDigits 10 digits).length : Int) - 1
      = ((Nat.toDigits 10 digits).length - 1 : Nat) by omega, zpow_natCast]
    refine mul_le_mul_of_nonneg_right ?_ (ten_zpow_pos exponent).le
    exact_mod_cast Text.pow_length_toDigits_le hdigits
  have hmost : digits * (10 : ℚ) ^ exponent
      < 10 ^ (((Nat.toDigits 10 digits).length : Int) + exponent) := by
    rw [zpow_add₀ (by norm_num), zpow_natCast]
    refine mul_lt_mul_of_pos_right ?_ (ten_zpow_pos exponent)
    exact_mod_cast Text.lt_pow_length_toDigits digits
  have habove : ¬ 310 < ((Nat.toDigits 10 digits).length : Int) + exponent := by
    intro hlarge
    have hvalue : (10 : ℚ) ^ ((310 : Nat) : Int) ≤ 2 ^ ((1024 : Nat) : Int) := by
      calc (10 : ℚ) ^ ((310 : Nat) : Int)
          ≤ 10 ^ (((Nat.toDigits 10 digits).length : Int) - 1 + exponent) :=
            zpow_le_zpow_right₀ (by norm_num) (by omega)
        _ ≤ digits * 10 ^ exponent := hleast
        _ ≤ 2 ^ ((1024 : Nat) : Int) := h.le_greatest hcanonical
    rw [zpow_natCast, zpow_natCast] at hvalue
    have hpowers : (10 : Nat) ^ 310 ≤ 2 ^ 1024 := by exact_mod_cast hvalue
    exact absurd hpowers (by decide +kernel)
  have hbelow : ¬ ((Nat.toDigits 10 digits).length : Int) + exponent < -330 := by
    intro hsmall
    have hvalue : (2 : ℚ) ^ (-((1076 : Nat) : Int)) < 10 ^ (-((330 : Nat) : Int)) := by
      calc (2 : ℚ) ^ (-((1076 : Nat) : Int)) ≤ digits * 10 ^ exponent := h.least_le hcanonical hm
        _ < 10 ^ (((Nat.toDigits 10 digits).length : Int) + exponent) := hmost
        _ ≤ 10 ^ (-((330 : Nat) : Int)) := zpow_le_zpow_right₀ (by norm_num) (by omega)
    rw [zpow_neg, zpow_neg, zpow_natCast, zpow_natCast,
      inv_lt_inv₀ (by positivity) (by positivity)] at hvalue
    have hpowers : (10 : Nat) ^ 330 < 2 ^ 1076 := by exact_mod_cast hvalue
    exact absurd hpowers (by decide +kernel)
  unfold ofDecimal
  rw [if_neg hdigits.ne', if_neg habove, if_neg hbelow]
  refine ofRatio_of_near negative hcanonical hm (Nat.pow_pos (by decide)) ?_
  simp only [Nat.pow_eq]
  push_cast
  rw [mul_div_assoc, ← ten_zpow_eq]
  exact h

/-- A decimal with the value of the shortest one is read back as the number. -/
theorem ofDecimal_shortest (negative : Bool) (hcanonical : Canonical m e) (hm : 0 < m) {d : Decimal}
    (h : d.value = (shortest m e).value) :
    ofDecimal negative d.significand d.exponent = .finite negative m e := by
  refine ofDecimal_of_near negative hcanonical hm ?_
  rw [h]
  exact near_shortest hcanonical hm

/-! ## What decimals are read as -/

/-- A number in its one form, if it is finite. -/
def InForm : Binary64 → Prop
  | .finite _ m e => Canonical m e
  | .infinite _ | .nan => True

theorem inForm_zero (negative : Bool) : (zero negative).InForm :=
  ⟨by decide, .inr rfl, le_refl _, by decide⟩

theorem inForm_ofRatio (negative : Bool) {num den : Nat} (hden : 0 < den) :
    (ofRatio negative num den).InForm := by
  cases h : ofRatio negative num den with
  | finite sign m e => exact canonical_ofRatio hden h
  | infinite sign => trivial
  | nan => trivial

theorem inForm_ofDecimal (negative : Bool) (digits : Nat) (exponent : Int) :
    (ofDecimal negative digits exponent).InForm := by
  unfold ofDecimal
  dsimp only
  split
  · exact inForm_zero negative
  · split
    · trivial
    · split
      · exact inForm_zero negative
      · exact inForm_ofRatio negative (Nat.pow_pos (by decide))

/-- A number rounded to decimal places is in its one form. -/
theorem inForm_roundPlaces (places : Nat) (x : Binary64) : (roundPlaces places x).InForm := by
  cases x with
  | finite negative m e => exact inForm_ofDecimal _ _ _
  | infinite negative => trivial
  | nan => trivial

end Binary64

end Screencast
