import Screencast.Proofs.Number.Bounds
import Screencast.Proofs.Results

/-!
# Finite numbers

What is computed from finite numbers is finite as long as no product leaves the range of binary numbers:
`Number.Fits` says that of one product, and `Number.Fits.mul` that the product is then not above
`2 ^ 1024`.  What is computed from numbers that are not negative is not negative.
-/

namespace Screencast

namespace Binary64

def IsFinite : Binary64 → Prop
  | .finite _ _ _ => True
  | .infinite _ | .nan => False

theorem AtMost.isFinite {x : Binary64} {bound : ℚ} (h : x.AtMost bound) : x.IsFinite := by
  cases x with
  | finite negative significand exponent => trivial
  | infinite negative => exact h.elim
  | nan => exact h.elim

variable {num den : Nat}

/-- The value of a finite number in its one form can be a bound. -/
theorem Canonical.representable {significand : Nat} {exponent : Int}
    (h : Canonical significand exponent) :
    Representable (significand * 2 ^ exponent) significand exponent :=
  ⟨rfl, h.bits, h.least, h.greatest⟩

/-- Finite numbers are below the range. -/
theorem Canonical.value_le {significand : Nat} {exponent : Int}
    (h : Canonical significand exponent) : (significand * 2 ^ exponent : ℚ) ≤ 2 ^ 1024 := by
  have hbits : (significand : ℚ) ≤ (2 ^ (fractionBits + 1) : Nat) := by exact_mod_cast h.bits.le
  have hexponent : (2 : ℚ) ^ exponent ≤ 2 ^ greatestExponent :=
    zpow_le_zpow_right₀ one_le_two h.greatest
  calc (significand : ℚ) * 2 ^ exponent
      ≤ (2 ^ (fractionBits + 1) : Nat) * 2 ^ greatestExponent :=
        mul_le_mul hbits hexponent (two_zpow_pos _).le (by positivity)
    _ = 2 ^ (1024 : Int) := by
        rw [← two_zpow_natCast, ← zpow_add₀ two_ne_zero]
        rfl
    _ = 2 ^ 1024 := by norm_num

theorem ofRatio_atMost_of_isFinite {negative : Bool} (hden : 0 < den)
    (h : (ofRatio negative num den).IsFinite) : (ofRatio negative num den).AtMost (2 ^ 1024) := by
  cases hratio : ofRatio negative num den with
  | finite sign significand exponent => exact (canonical_ofRatio hden hratio).value_le
  | infinite sign | nan =>
      rw [hratio] at h
      exact h.elim

/-- A product is finite only if both numbers are. -/
theorem isFinite_of_mul {x y : Binary64} (h : (x.mul y).IsFinite) : x.IsFinite ∧ y.IsFinite := by
  have hspecial (special sign : Bool) : ¬(if special then nan else infinite sign).IsFinite := by
    cases special with
    | false => exact id
    | true => exact id
  cases x with
  | nan => exact h.elim
  | infinite s =>
      cases y with
      | nan => exact h.elim
      | infinite t => exact absurd h (hspecial false _)
      | finite t n f => exact absurd h (hspecial _ _)
  | finite s m e =>
      cases y with
      | nan => exact h.elim
      | infinite t => exact absurd h (hspecial _ _)
      | finite t n f => exact ⟨trivial, trivial⟩

/-- A quotient is finite only if the number that is divided is. -/
theorem isFinite_of_div {x y : Binary64} (h : (x.div y).IsFinite) : x.IsFinite := by
  cases x with
  | finite s m e => trivial
  | nan => exact h.elim
  | infinite s =>
      cases y with
      | nan | infinite t | finite t n f => exact h.elim

/-- Only finite numbers have an integer. -/
theorem isFinite_of_toInteger {x : Binary64} {rule : Bool → Nat → Int → Int} {n : Int}
    (h : x.toInteger rule = .ok n) : x.IsFinite := by
  cases x with
  | finite s m e => trivial
  | infinite s | nan => cases h

/-- Finite products are not above the range. -/
theorem mul_atMost_of_isFinite {x y : Binary64} (h : (x.mul y).IsFinite) :
    (x.mul y).AtMost (2 ^ 1024) := by
  obtain ⟨hx, hy⟩ := isFinite_of_mul h
  match x, y, hx, hy with
  | .finite s m e, .finite t n f, _, _ =>
      exact ofRatio_atMost_of_isFinite (scaleUp_pos Nat.one_pos _) h

/-- The exponent to which a finite quotient was rounded. -/
theorem exponent_of_isFinite {negative : Bool} {significand : Nat} {exponent : Int}
    (h : (pack negative significand exponent).IsFinite) : exponent ≤ greatestExponent := by
  unfold pack at h
  by_cases hcarried : significand = Nat.pow 2 (fractionBits + 1)
  · simp only [hcarried, if_true] at h
    split at h
    · exact h.elim
    · omega
  · simp only [hcarried, if_false] at h
    split at h
    · exact h.elim
    · omega

/-- Only quotients within the range are rounded to finite numbers. -/
theorem le_of_ofRatio_isFinite {negative : Bool} (hden : 0 < den)
    (h : (ofRatio negative num den).IsFinite) : (num / den : ℚ) ≤ 2 ^ 1024 := by
  rcases Nat.eq_zero_or_pos num with rfl | hnum
  · rw [Nat.cast_zero, zero_div]
    positivity
  · obtain ⟨m, e, hpack, hmax, -⟩ := ofRatio_cases negative hnum hden
    obtain ⟨-, hhigh⟩ := leadingBit_spec hnum hden
    rw [hpack] at h
    have hexponent := exponent_of_isFinite h
    simp only [fractionBits, greatestExponent] at hmax hexponent
    have hleading : leadingBit num den + 1 ≤ (1024 : Int) := by omega
    calc (num / den : ℚ) ≤ 2 ^ (leadingBit num den + 1) := hhigh.le
      _ ≤ 2 ^ (1024 : Int) := zpow_le_zpow_right₀ one_le_two hleading
      _ = 2 ^ 1024 := by norm_num

/-- A number whose double is finite is finite itself, and not one of the largest. -/
theorem pack_of_double {negative : Bool} {significand : Nat} {exponent : Int}
    (h : (pack negative significand (exponent + 1)).IsFinite) :
    ∃ m e, pack negative significand exponent = .finite negative m e ∧ e < greatestExponent := by
  have hexponent := exponent_of_isFinite h
  unfold pack at h ⊢
  by_cases hcarried : significand = Nat.pow 2 (fractionBits + 1)
  · simp only [hcarried, if_true] at h ⊢
    split at h
    · exact h.elim
    · exact ⟨_, _, if_neg (by omega), by omega⟩
  · simp only [hcarried, if_false]
    exact ⟨_, _, if_neg (by omega), by omega⟩

/-- If the double of an integer is rounded to a finite number, its double can still be taken after
rounding. -/
theorem ofRatio_of_double {negative : Bool} (h : (ofRatio negative (2 * num) 1).IsFinite) :
    ∃ significand exponent, ofRatio negative num 1 = .finite negative significand exponent ∧
      Canonical significand exponent ∧ exponent < greatestExponent := by
  rcases Nat.eq_zero_or_pos num with rfl | hnum
  · have hzero : ofRatio negative 0 1 = .finite negative 0 leastExponent := by
      simp [ofRatio, zero]
    exact ⟨0, leastExponent, hzero, canonical_ofRatio Nat.one_pos hzero, by decide⟩
  · obtain ⟨m, e, hpack, hmax, hnearest, hbits, -⟩ := ofRatio_cases negative hnum Nat.one_pos
    obtain ⟨hlow, hhigh⟩ := leadingBit_spec hnum Nat.one_pos
    have hcast : ((2 * num : Nat) : ℚ) / (1 : Nat) = 2 * (num / (1 : Nat)) := by
      push_cast
      ring
    -- the double is rounded in the same way, one place further up
    have hleading : leadingBit (2 * num) 1 = leadingBit num 1 + 1 := by
      refine leadingBit_eq (by omega) Nat.one_pos ?_ ?_
      · rw [hcast, zpow_add_one₀ two_ne_zero, mul_comm]
        exact mul_le_mul_of_nonneg_left hlow two_pos.le
      · rw [hcast, zpow_add_one₀ two_ne_zero, mul_comm]
        exact mul_lt_mul_of_pos_right hhigh two_pos
    have hpositive : 0 ≤ leadingBit num 1 := by
      have hone : (1 : ℚ) ≤ num / (1 : Nat) := by
        rw [Nat.cast_one, div_one]
        exact_mod_cast hnum
      have hlt : (2 : ℚ) ^ (0 : Int) < 2 ^ (leadingBit num 1 + 1) := by
        rw [zpow_zero]
        exact hone.trans_lt hhigh
      have hexponents := two_zpow_lt_iff.mp hlt
      omega
    have hscale : max (leadingBit (2 * num) 1 - fractionBits) leastExponent = e + 1 := by
      simp only [fractionBits, leastExponent] at hmax ⊢
      omega
    have hsame : ((2 * num : Nat) : ℚ) / (1 : Nat) * 2 ^ (-(e + 1)) = num / (1 : Nat) * 2 ^ (-e) := by
      rw [hcast, neg_add, zpow_add₀ two_ne_zero, zpow_neg_one]
      ring
    rw [ofRatio_eq negative (by omega) Nat.one_pos hscale (hsame ▸ hnearest)] at h
    obtain ⟨significand, exponent, hvalue, hexponent⟩ := pack_of_double h
    rw [← hpack] at hvalue
    exact ⟨significand, exponent, hvalue, canonical_ofRatio Nat.one_pos hvalue, hexponent⟩

theorem ofInt_natCast (n : Nat) : ofInt n = ofRatio false n 1 := by
  rw [ofInt, decide_eq_false (Int.not_lt.mpr (Int.natCast_nonneg n)), Int.natAbs_natCast]

/-! ## Signs -/

variable {x y : Binary64}

/-- A quotient of natural numbers with the sign of a positive number, or zero. -/
theorem isNegative_ofRatio {negative : Bool} (h : negative = true → num = 0) :
    (ofRatio negative num den).isNegative = false := by
  unfold ofRatio
  split
  · simp [zero, isNegative]
  · next hnum =>
    have hsign : negative = false := by
      cases negative with
      | false => rfl
      | true => exact absurd (h rfl) hnum
    have hpack (significand : Nat) (exponent : Int) :
        (pack false significand exponent).isNegative = false := by
      dsimp only [pack]
      split_ifs <;> rfl
    rw [hsign]
    exact hpack _ _

theorem scaleUp_zero (shift : Int) : scaleUp 0 shift = 0 := by
  rw [scaleUp, Nat.zero_shiftLeft]

theorem isNegative_of_isPositive (h : x.isPositive = true) : x.isNegative = false := by
  cases x with
  | nan => rfl
  | infinite s => simpa [isPositive, isNegative] using h
  | finite s m e =>
      have hsign : s = false ∧ m ≠ 0 := by simpa [isPositive] using h
      simp [isNegative, hsign.1]

/-- The product of two numbers that are not negative; a zero may have either sign. -/
theorem isNegative_mul (hx : x.isNegative = false) (hy : y.isNegative = false) :
    (x.mul y).isNegative = false := by
  cases x with
  | nan => rfl
  | infinite s =>
      obtain rfl : s = false := hx
      cases y with
      | nan => rfl
      | infinite t =>
          obtain rfl : t = false := hy
          rfl
      | finite t n f =>
          by_cases hn : n = 0
          · simp [mul, isZero, hn, isNegative]
          · obtain rfl : t = false := by simpa [isNegative, hn] using hy
            simp [mul, isZero, hn, isMinus, isNegative]
  | finite s m e =>
      cases y with
      | nan => rfl
      | infinite t =>
          obtain rfl : t = false := hy
          by_cases hm : m = 0
          · simp [mul, isZero, hm, isNegative]
          · obtain rfl : s = false := by simpa [isNegative, hm] using hx
            simp [mul, isZero, hm, isMinus, isNegative]
      | finite t n f =>
          refine isNegative_ofRatio fun hsign => ?_
          have hzero : m * n = 0 := by
            cases s with
            | true =>
                obtain rfl : m = 0 := by simpa [isNegative] using hx
                exact Nat.zero_mul n
            | false =>
                obtain rfl : t = true := by simpa using hsign
                obtain rfl : n = 0 := by simpa [isNegative] using hy
                exact Nat.mul_zero m
          rw [hzero, scaleUp_zero]

/-- Quotients by positive numbers. -/
theorem isNegative_div {n : Nat} {f : Int} (hx : x.isNegative = false) (hn : n ≠ 0) :
    (x.div (.finite false n f)).isNegative = false := by
  cases x with
  | nan => rfl
  | infinite s =>
      obtain rfl : s = false := hx
      rfl
  | finite s m e =>
      simp only [div, if_neg hn]
      refine isNegative_ofRatio fun hsign => ?_
      obtain rfl : s = true := by simpa using hsign
      obtain rfl : m = 0 := by simpa [isNegative] using hx
      rw [scaleUp_zero]

theorem floor_nonneg {n : Int} (hx : x.isNegative = false) (h : x.floor = .ok n) : 0 ≤ n := by
  cases x with
  | nan => cases h
  | infinite s => cases h
  | finite s m e =>
      cases h
      cases s with
      | false => exact Int.natCast_nonneg ((magnitude m e).1 / (magnitude m e).2)
      | true =>
          obtain rfl : m = 0 := by simpa [isNegative] using hx
          have hzero : ceilQuotient (magnitude 0 e).1 (magnitude 0 e).2 = 0 := by
            simp [magnitude, scaleUp_zero, ceilQuotient]
          show 0 ≤ -((ceilQuotient (magnitude 0 e).1 (magnitude 0 e).2 : Nat) : Int)
          rw [hzero]
          rfl

end Binary64

/-! ## Quantities -/

namespace Number

def IsFinite : Number → Prop
  | .int _ => True
  | .real x => x.IsFinite

/-- The product of two numbers does not leave the range: if both are finite, so is the product, also as a
binary number. -/
def Fits (quantity other : Number) : Prop :=
  quantity.IsFinite → other.IsFinite → ∃ product x, quantity.mul other = .ok product ∧
    product.toReal = .ok x ∧ x.IsFinite

theorem ofInt_of_toReal {n : Int} {x : Binary64} (h : (Number.int n).toReal = .ok x) :
    Binary64.ofInt n = x := by
  simp only [toReal] at h
  split at h
  · cases h
  · exact Except.ok.inj h

theorem toReal_of_isFinite {n : Int} (h : (Binary64.ofInt n).IsFinite) :
    (Number.int n).toReal = .ok (Binary64.ofInt n) := by
  have hinfinite : (Binary64.ofInt n).isInfinite = false := by
    cases hx : Binary64.ofInt n with
    | finite negative significand exponent => rfl
    | infinite negative | nan =>
        rw [hx] at h
        exact h.elim
  simp only [toReal, hinfinite, Bool.false_eq_true, if_false]

theorem atMost_of_toReal {n : Int} {x : Binary64} (h : (Number.int n).toReal = .ok x)
    (hfinite : x.IsFinite) : (Number.int n).AtMost 1024 := by
  rw [← ofInt_of_toReal h] at hfinite
  have hvalue := Binary64.le_of_ofRatio_isFinite Nat.one_pos hfinite
  rw [Nat.cast_one, div_one] at hvalue
  show n.natAbs ≤ 2 ^ 1024
  exact_mod_cast hvalue

/-- A product is that of two integers or that of two binary numbers. -/
theorem mul_cases {quantity other product : Number} (h : quantity.mul other = .ok product) :
    (∃ a b, quantity = .int a ∧ other = .int b ∧ product = .int (a * b)) ∨
      ∃ x y, quantity.toReal = .ok x ∧ other.toReal = .ok y ∧ product = .real (x.mul y) := by
  have hreal (hmul : (do
      let x ← quantity.toReal
      let y ← other.toReal
      return Number.real (x.mul y) : Except ArithmeticError Number) = .ok product) :
      ∃ x y, quantity.toReal = .ok x ∧ other.toReal = .ok y ∧ product = .real (x.mul y) := by
    obtain ⟨x, hx, hmul⟩ := exists_of_bind_eq_ok hmul
    obtain ⟨y, hy, hmul⟩ := exists_of_bind_eq_ok hmul
    exact ⟨x, y, hx, hy, (Except.ok.inj hmul).symm⟩
  match quantity, other, h, hreal with
  | .int a, .int b, h, _ =>
      cases h
      exact .inl ⟨a, b, rfl, rfl, rfl⟩
  | .int a, .real y, h, hreal | .real x, .int b, h, hreal | .real x, .real y, h, hreal =>
      exact .inr (hreal h)

theorem Fits.mul {quantity other : Number} (h : quantity.Fits other) (hquantity : quantity.IsFinite)
    (hother : other.IsFinite) :
    ∃ product, quantity.mul other = .ok product ∧ product.AtMost 1024 := by
  obtain ⟨product, x, hproduct, hx, hfinite⟩ := h hquantity hother
  refine ⟨product, hproduct, ?_⟩
  obtain ⟨a, b, -, -, rfl⟩ | ⟨a, b, -, -, rfl⟩ := mul_cases hproduct
  · exact atMost_of_toReal hx hfinite
  · obtain rfl : a.mul b = x := Except.ok.inj hx
    exact Binary64.mul_atMost_of_isFinite hfinite

/-- The product of bounded numbers stays within the range. -/
theorem AtMost.fits {quantity other : Number} {j k : Nat} (h : quantity.AtMost j)
    (h' : other.AtMost k) (hrange : j + k ≤ 1023) : quantity.Fits other := by
  intro _ _
  obtain ⟨product, hproduct, hbound⟩ := h.mul h' hrange
  obtain ⟨x, hx, hfinite⟩ := hbound.toReal hrange
  exact ⟨product, x, hproduct, hx, hfinite.isFinite⟩

/-- If the double of a natural number stays within the range, its binary number can be doubled as well. -/
theorem Fits.toReal_of_double {n : Nat} (h : (Number.int 2).Fits (.int n)) :
    ∃ significand exponent, (Number.int n).toReal = .ok (.finite false significand exponent) ∧
      Binary64.Canonical significand exponent ∧ exponent < Binary64.greatestExponent := by
  obtain ⟨_, x, ⟨⟩, hx, hfinite⟩ := h trivial trivial
  have hdouble : Binary64.ofRatio false (2 * n) 1 = x := by
    rw [← ofInt_of_toReal hx, ← Binary64.ofInt_natCast]
    rfl
  rw [← hdouble] at hfinite
  obtain ⟨significand, exponent, hvalue, hcanonical, hroom⟩ := Binary64.ofRatio_of_double hfinite
  rw [← Binary64.ofInt_natCast] at hvalue
  have hreal : (Binary64.ofInt n).IsFinite := by
    rw [hvalue]
    trivial
  exact ⟨significand, exponent, hvalue ▸ toReal_of_isFinite hreal, hcanonical, hroom⟩

/-- If the product of a number of milliseconds with something positive stays within the range, then so
do the seconds. -/
theorem Fits.seconds {quantity other : Number} (h : quantity.Fits other)
    (hquantity : quantity.IsFinite) (hother : other.IsFinite) (hpositive : other.isPositive = true) :
    ∃ seconds, quantity.div (.int 1000) = .ok seconds := by
  cases quantity with
  | real x => exact ⟨_, rfl⟩
  | int n =>
      obtain ⟨product, x, hproduct, hx, hfinite⟩ := h hquantity hother
      have hbound : (Number.int n).AtMost (1015 + 9) := by
        obtain ⟨a, b, ha, rfl, rfl⟩ | ⟨a, b, ha, hb, rfl⟩ := mul_cases hproduct
        · obtain rfl := Number.int.inj ha
          have hfactor : 0 < b := of_decide_eq_true hpositive
          have hbound : (Number.int (n * b)).AtMost (1015 + 9) := atMost_of_toReal hx hfinite
          rw [AtMost, Int.natAbs_mul] at hbound
          exact (Nat.le_mul_of_pos_right _ (Int.natAbs_pos.mpr hfactor.ne')).trans hbound
        · obtain rfl : a.mul b = x := Except.ok.inj hx
          exact atMost_of_toReal ha (Binary64.isFinite_of_mul hfinite).1
      obtain ⟨seconds, hseconds, -⟩ := hbound.div_thousand (by decide)
      exact ⟨seconds, hseconds⟩

/-! ## Signs -/

theorem isNegative_natCast (n : Nat) : (Number.int n).isNegative = false :=
  decide_eq_false (Int.not_lt.mpr (Int.natCast_nonneg n))

theorem isNegative_toReal {quantity : Number} {x : Binary64} (h : quantity.isNegative = false)
    (hx : quantity.toReal = .ok x) : x.isNegative = false := by
  cases quantity with
  | real y =>
      obtain rfl : y = x := Except.ok.inj hx
      exact h
  | int n =>
      have hn : ¬n < 0 := of_decide_eq_false h
      rw [← ofInt_of_toReal hx]
      exact Binary64.isNegative_ofRatio fun hsign => absurd (of_decide_eq_true hsign) hn

theorem isNegative_of_isPositive {quantity : Number} (h : quantity.isPositive = true) :
    quantity.isNegative = false := by
  cases quantity with
  | int n =>
      have hn : 0 < n := of_decide_eq_true h
      exact decide_eq_false (by omega)
  | real x => exact Binary64.isNegative_of_isPositive h

theorem isNegative_mul {quantity other product : Number} (h : quantity.isNegative = false)
    (hother : other.isNegative = false) (hproduct : quantity.mul other = .ok product) :
    product.isNegative = false := by
  obtain ⟨a, b, rfl, rfl, rfl⟩ | ⟨x, y, hx, hy, rfl⟩ := mul_cases hproduct
  · have ha : ¬a < 0 := of_decide_eq_false h
    have hb : ¬b < 0 := of_decide_eq_false hother
    exact decide_eq_false (not_lt.mpr (mul_nonneg (not_lt.mp ha) (not_lt.mp hb)))
  · exact Binary64.isNegative_mul (isNegative_toReal h hx) (isNegative_toReal hother hy)

/-- The number of seconds in milliseconds that are not negative. -/
theorem isNegative_div_thousand {quantity : Number} {x : Binary64} (h : quantity.isNegative = false)
    (hx : quantity.div (.int 1000) = .ok x) : x.isNegative = false := by
  cases quantity with
  | int n =>
      have hn : ¬n < 0 := of_decide_eq_false h
      simp only [div, quotient] at hx
      split at hx
      · cases hx
      · obtain rfl := Except.ok.inj hx
        refine Binary64.isNegative_ofRatio fun hsign => ?_
        simp [hn] at hsign
  | real y =>
      obtain rfl : y.div (.ofInt 1000) = x := Except.ok.inj hx
      have hthousand : Binary64.ofInt 1000 = .finite false 8796093022208000 (-43) := by decide +kernel
      rw [hthousand]
      exact Binary64.isNegative_div h (by decide)

end Number

end Screencast
