import Screencast.Number.Basic
import Screencast.Number.Twister
import Screencast.Proofs.Number.Nearest

/-!
# Numbers that stay within the range

Arithmetic with binary numbers fails or gives an infinity only beyond the range of the format.
`AtMost` bounds a number by a power of two, each operation has a bound for its result, and what is
bounded is finite.
-/

namespace Screencast

namespace Binary64

variable {num den : Nat}

/-- A finite number whose magnitude is not above a bound. -/
def AtMost (bound : ℚ) : Binary64 → Prop
  | .finite _ significand exponent => significand * 2 ^ exponent ≤ bound
  | .infinite _ | .nan => False

/-- A bound that is the value of a binary number itself. -/
structure Representable (bound : ℚ) (significand : Nat) (exponent : Int) : Prop where
  value : bound = significand * 2 ^ exponent
  bits : significand < 2 ^ (fractionBits + 1)
  least : leastExponent ≤ exponent
  greatest : exponent ≤ greatestExponent

theorem representable_two_pow {k : Nat} (h : k ≤ 1023) :
    Representable (2 ^ k) (2 ^ fractionBits) (k - fractionBits) where
  value := by
    rw [← two_zpow_natCast, ← zpow_add₀ two_ne_zero, add_sub_cancel, zpow_natCast]
  bits := by decide
  least := by simp only [leastExponent, fractionBits]; omega
  greatest := by simp only [greatestExponent, fractionBits]; omega

theorem Representable.nonneg {bound : ℚ} {significand : Nat} {exponent : Int}
    (h : Representable bound significand exponent) : 0 ≤ bound := by
  rw [h.value]
  positivity

theorem Representable.double {bound : ℚ} {significand : Nat} {exponent : Int}
    (h : Representable bound significand exponent) (hroom : exponent < greatestExponent) :
    Representable (2 * bound) significand (exponent + 1) where
  value := by
    rw [h.value, zpow_add_one₀ two_ne_zero]
    ring
  bits := h.bits
  least := h.least.trans (Int.le_of_lt (Int.lt_succ exponent))
  greatest := Int.add_one_le_of_lt hroom

/-- Rounding does not pass a binary number. -/
theorem ofRatio_atMost_of_representable (negative : Bool) (hden : 0 < den) {bound : ℚ} {n : Nat}
    {f : Int} (h : Representable bound n f) (hbound : (num / den : ℚ) ≤ bound) :
    (ofRatio negative num den).AtMost bound := by
  rcases Nat.eq_zero_or_pos num with rfl | hnum
  · have hzero : ofRatio negative 0 den = .finite negative 0 leastExponent := by
      simp [ofRatio, zero]
    rw [hzero, AtMost, Nat.cast_zero, zero_mul]
    exact h.nonneg
  · obtain ⟨m, e, hpack, hmax, hnearest, hbits, hfull⟩ := ofRatio_cases negative hnum hden
    obtain ⟨hlow, -⟩ := leadingBit_spec hnum hden
    have hleading : leadingBit num den < fractionBits + 1 + f := by
      have hbelow : bound < 2 ^ ((fractionBits : Int) + 1 + f) := by
        rw [h.value, zpow_add₀ two_ne_zero]
        refine mul_lt_mul_of_pos_right ?_ (two_zpow_pos f)
        exact_mod_cast h.bits
      exact two_zpow_lt_iff.mp ((hlow.trans hbound).trans_lt hbelow)
    have hleast := h.least
    have hgreatest := h.greatest
    -- the bound is an integer at the scale of the result
    obtain ⟨j, hj⟩ := Int.eq_ofNat_of_zero_le (by omega : 0 ≤ f - e)
    have hscale : (2 : ℚ) ^ f = 2 ^ j * 2 ^ e := by
      rw [← zpow_natCast, ← hj, ← zpow_add₀ two_ne_zero, sub_add_cancel]
    have hscaled : (num / den : ℚ) * 2 ^ (-e) ≤ (n * 2 ^ j : Nat) := by
      calc (num / den : ℚ) * 2 ^ (-e) ≤ bound * 2 ^ (-e) :=
            mul_le_mul_of_nonneg_right hbound (two_zpow_pos _).le
        _ = n * 2 ^ j * (2 ^ e * 2 ^ (-e)) := by
            rw [h.value, hscale]
            ring
        _ = (n * 2 ^ j : Nat) := by
            rw [← zpow_add₀ two_ne_zero, add_neg_cancel, zpow_zero, mul_one]
            push_cast
            rfl
    have hmost : m ≤ n * 2 ^ j := hnearest.le_of_le hscaled
    have hvalue : (m : ℚ) * 2 ^ e ≤ bound := by
      calc (m : ℚ) * 2 ^ e ≤ (n * 2 ^ j : Nat) * 2 ^ e :=
            mul_le_mul_of_nonneg_right (by exact_mod_cast hmost) (two_zpow_pos _).le
        _ = bound := by
            rw [h.value, hscale]
            push_cast
            ring
    rw [hpack]
    unfold pack
    by_cases hcarried : m = Nat.pow 2 (fractionBits + 1)
    · -- the carried significand is a power of two below the bound
      have hj' : j ≠ 0 := by
        rintro rfl
        have hbits' := h.bits
        rw [hcarried, pow_zero, mul_one] at hmost
        exact absurd hmost (not_le.mpr hbits')
      simp only [hcarried, if_true]
      rw [if_neg (by omega), AtMost]
      calc ((Nat.pow 2 fractionBits : Nat) : ℚ) * 2 ^ (e + 1) = m * 2 ^ e := by
            rw [hcarried, zpow_add₀ two_ne_zero]
            simp only [Nat.pow_eq, fractionBits]
            push_cast
            ring
        _ ≤ bound := hvalue
    · simp only [hcarried, if_false]
      rw [if_neg (by omega)]
      exact hvalue

/-- What is not above a power of two within the range is rounded to something not above it. -/
theorem ofRatio_atMost (negative : Bool) (hden : 0 < den) {k : Nat} (hk : k ≤ 1023)
    (hbound : (num / den : ℚ) ≤ 2 ^ k) : (ofRatio negative num den).AtMost (2 ^ k) :=
  ofRatio_atMost_of_representable negative hden (representable_two_pow hk) hbound

theorem ofScaled_value (significand : Nat) (exponent : Int) :
    (scaleUp significand exponent : ℚ) / scaleUp 1 (-exponent) = significand * 2 ^ exponent := by
  have hscale := scaleUp_div_scaleUp significand 1 (-exponent)
  rwa [neg_neg, Nat.cast_one, div_one] at hscale

theorem scaleUp_pos {n : Nat} (h : 0 < n) (shift : Int) : 0 < scaleUp n shift := by
  rw [scaleUp, Nat.shiftLeft_eq]
  exact Nat.mul_pos h (Nat.two_pow_pos _)

theorem ofScaled_atMost (negative : Bool) {significand n : Nat} {exponent f : Int} {bound : ℚ}
    (h : Representable bound n f) (hbound : (significand * 2 ^ exponent : ℚ) ≤ bound) :
    (ofScaled negative significand exponent).AtMost bound := by
  refine ofRatio_atMost_of_representable negative (scaleUp_pos Nat.one_pos _) h ?_
  rwa [ofScaled_value]

variable {x y : Binary64} {bound : ℚ}

theorem AtMost.isInfinite (h : x.AtMost bound) : x.isInfinite = false := by
  cases x with
  | finite negative significand exponent => rfl
  | infinite negative => exact h.elim
  | nan => rfl

theorem AtMost.toInteger (h : x.AtMost bound) (rule : Bool → Nat → Int → Int) :
    ∃ n, x.toInteger rule = .ok n := by
  cases x with
  | finite negative significand exponent => exact ⟨_, rfl⟩
  | infinite negative => exact h.elim
  | nan => exact h.elim

/-- Products are not above a binary number that the product of the bounds is not above. -/
theorem AtMost.mul_of_le {a b : ℚ} {n : Nat} {f : Int} (hx : x.AtMost a) (hy : y.AtMost b)
    (h : Representable bound n f) (hle : a * b ≤ bound) : (x.mul y).AtMost bound := by
  match x, y, hx, hy with
  | .finite s m e, .finite t l g, hx, hy =>
      have ha : (0 : ℚ) ≤ a := le_trans (by positivity) hx
      refine ofScaled_atMost _ h ?_
      calc ((m * l : Nat) : ℚ) * 2 ^ (e + g) = (m * 2 ^ e) * (l * 2 ^ g) := by
            rw [zpow_add₀ two_ne_zero]
            push_cast
            ring
        _ ≤ a * b := mul_le_mul hx hy (by positivity) ha
        _ ≤ bound := hle

theorem AtMost.mul {j k : Nat} (hx : x.AtMost (2 ^ j)) (hy : y.AtMost (2 ^ k))
    (hrange : j + k ≤ 1023) : (x.mul y).AtMost (2 ^ (j + k)) :=
  hx.mul_of_le hy (representable_two_pow hrange) (pow_add _ _ _).ge

/-- So are quotients. -/
theorem AtMost.div_of_le {a : ℚ} {n l : Nat} {f g : Int} (hx : x.AtMost a) (hl : 0 < l)
    (h : Representable bound n f) (hle : a / (l * 2 ^ g) ≤ bound) (t : Bool) :
    (x.div (.finite t l g)).AtMost bound := by
  match x, hx with
  | .finite s m e, hx =>
      simp only [Binary64.div, if_neg hl.ne']
      refine ofRatio_atMost_of_representable _ (scaleUp_pos hl _) h ?_
      have hscale := scaleUp_div_scaleUp m l (g - e)
      rw [neg_sub] at hscale
      rw [hscale]
      calc (m : ℚ) / l * 2 ^ (e - g) = m * 2 ^ e / (l * 2 ^ g) := by
            rw [zpow_sub₀ two_ne_zero, div_mul_div_comm]
        _ ≤ a / (l * 2 ^ g) := div_le_div_of_nonneg_right hx (by positivity)
        _ ≤ bound := hle

/-- A finite magnitude as a multiple of a smaller power of two. -/
theorem scaleUp_sub_value (significand : Nat) {exponent base : Int} (h : base ≤ exponent) :
    (scaleUp significand (exponent - base) : ℚ) * 2 ^ base = significand * 2 ^ exponent := by
  obtain ⟨shift, hshift⟩ := Int.eq_ofNat_of_zero_le (sub_nonneg.mpr h)
  have hexponent : exponent = shift + base := by omega
  rw [scaleUp_cast, hshift, Int.toNat_natCast, hexponent, zpow_add₀ two_ne_zero, zpow_natCast,
    mul_assoc]

/-- So are sums. -/
theorem AtMost.add_of_le {a b : ℚ} {l : Nat} {g : Int} (hx : x.AtMost a) (hy : y.AtMost b)
    (h : Representable bound l g) (hle : a + b ≤ bound) : (x.add y).AtMost bound := by
  match x, y, hx, hy with
  | .finite s m e, .finite t n f, hx, hy =>
      let left : Int := scaleUp m (e - min e f)
      let right : Int := scaleUp n (f - min e f)
      let sum : Int := (if s then -left else left) + (if t then -right else right)
      have hadd : (Binary64.finite s m e).add (.finite t n f)
          = if sum = 0 then zero (s && t) else ofScaled (sum < 0) sum.natAbs (min e f) := rfl
      have hsum : sum.natAbs ≤ scaleUp m (e - min e f) + scaleUp n (f - min e f) := by
        simp only [sum, left, right]
        split <;> split <;> omega
      rw [hadd]
      split
      · show ((0 : Nat) : ℚ) * 2 ^ leastExponent ≤ bound
        rw [Nat.cast_zero, zero_mul]
        exact h.nonneg
      · refine ofScaled_atMost _ h ?_
        calc (sum.natAbs : ℚ) * 2 ^ min e f
            ≤ (scaleUp m (e - min e f) + scaleUp n (f - min e f) : Nat) * 2 ^ min e f :=
              mul_le_mul_of_nonneg_right (by exact_mod_cast hsum) (two_zpow_pos _).le
          _ = m * 2 ^ e + n * 2 ^ f := by
              rw [Nat.cast_add, add_mul, scaleUp_sub_value m (min_le_left e f),
                scaleUp_sub_value n (min_le_right e f)]
          _ ≤ a + b := add_le_add hx hy
          _ ≤ bound := hle

end Binary64

/-! ## Quantities -/

namespace Number

/-- A quantity whose magnitude is not above a power of two. -/
def AtMost (k : Nat) : Number → Prop
  | .int n => n.natAbs ≤ 2 ^ k
  | .real x => x.AtMost (2 ^ k)

theorem AtMost.mono {quantity : Number} {j k : Nat} (h : quantity.AtMost j) (hjk : j ≤ k) :
    quantity.AtMost k := by
  cases quantity with
  | int n => exact le_trans (h : n.natAbs ≤ 2 ^ j) (Nat.pow_le_pow_right two_pos hjk)
  | real x =>
      cases x with
      | finite negative significand exponent =>
          exact le_trans (h : (significand * 2 ^ exponent : ℚ) ≤ 2 ^ j)
            (pow_le_pow_right₀ one_le_two hjk)
      | infinite negative => exact h.elim
      | nan => exact h.elim

theorem ofInt_atMost {n : Int} {k : Nat} (h : n.natAbs ≤ 2 ^ k) (hk : k ≤ 1023) :
    (Binary64.ofInt n).AtMost (2 ^ k) := by
  refine Binary64.ofRatio_atMost _ Nat.one_pos hk ?_
  rw [Nat.cast_one, div_one]
  exact_mod_cast h

/-- A bounded quantity is a finite binary number. -/
theorem AtMost.toReal {quantity : Number} {k : Nat} (h : quantity.AtMost k) (hk : k ≤ 1023) :
    ∃ x, quantity.toReal = .ok x ∧ x.AtMost (2 ^ k) := by
  cases quantity with
  | int n =>
      have hreal := ofInt_atMost h hk
      refine ⟨Binary64.ofInt n, ?_, hreal⟩
      simp only [Number.toReal, hreal.isInfinite, Bool.false_eq_true, if_false]
  | real x => exact ⟨x, rfl, h⟩

/-- Products stay within the range as long as the exponents of the bounds do. -/
theorem AtMost.mul {quantity other : Number} {j k : Nat} (h : quantity.AtMost j)
    (h' : other.AtMost k) (hrange : j + k ≤ 1023) :
    ∃ product, quantity.mul other = .ok product ∧ product.AtMost (j + k) := by
  obtain ⟨x, hx, hxbound⟩ := h.toReal (by omega)
  obtain ⟨y, hy, hybound⟩ := h'.toReal (by omega)
  have hreal : Number.AtMost (j + k) (.real (x.mul y)) := hxbound.mul hybound hrange
  match quantity, other with
  | .int a, .int b =>
      refine ⟨.int (a * b), rfl, ?_⟩
      have ha : a.natAbs ≤ 2 ^ j := h
      have hb : b.natAbs ≤ 2 ^ k := h'
      rw [AtMost, Int.natAbs_mul, pow_add]
      exact Nat.mul_le_mul ha hb
  | .int a, .real b | .real a, .int b | .real a, .real b =>
      refine ⟨.real (x.mul y), ?_, hreal⟩
      simp only [Number.mul, hx, hy]
      rfl

/-- The number of seconds in a bounded number of milliseconds; a thousand is more than `2 ^ 9`. -/
theorem AtMost.div_thousand {quantity : Number} {k : Nat} (h : quantity.AtMost (k + 9))
    (hk : k ≤ 1023) : ∃ x, quantity.div (.int 1000) = .ok x ∧ x.AtMost (2 ^ k) := by
  have hshare : (2 : ℚ) ^ (k + 9) / 1000 ≤ 2 ^ k := by
    rw [pow_add, div_le_iff₀ (by norm_num)]
    exact mul_le_mul_of_nonneg_left (by norm_num) (by positivity)
  cases quantity with
  | int n =>
      have hquotient : (Binary64.ofRatio (decide (n < 0) != decide ((1000 : Int) < 0)) n.natAbs
          1000).AtMost (2 ^ k) := by
        refine Binary64.ofRatio_atMost _ (by decide) hk ?_
        have hn : (n.natAbs : ℚ) ≤ 2 ^ (k + 9) := by exact_mod_cast h
        exact (div_le_div_of_nonneg_right hn (by norm_num)).trans hshare
      refine ⟨_, ?_, hquotient⟩
      have hfinite := hquotient.isInfinite
      simp only [Number.div, Number.quotient]
      rw [show (1000 : Int).natAbs = 1000 from rfl, hfinite]
      rfl
  | real x =>
      have hthousand : Binary64.ofInt 1000 = .finite false 8796093022208000 (-43) := by decide +kernel
      have hvalue : ((8796093022208000 : Nat) : ℚ) * 2 ^ (-43 : Int) = 1000 := by norm_num
      refine ⟨x.div (Binary64.ofInt 1000), rfl, ?_⟩
      rw [hthousand]
      refine Binary64.AtMost.div_of_le h (by decide) (Binary64.representable_two_pow hk) ?_ false
      rwa [hvalue]

end Number

end Screencast
