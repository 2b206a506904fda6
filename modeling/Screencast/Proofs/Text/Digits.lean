import Mathlib.Tactic.Ring
import Screencast.Text.Numeral

/-!
# Decimal digits

The digits of a number and the number that digits stand for undo each other, and the count of digits
bounds the number from both sides.
-/

namespace Screencast.Text

theorem digitsValue_toDigits (n : Nat) : digitsValue (Nat.toDigits 10 n) = n :=
  Nat.ofDigitChars_toDigits (by decide) (by decide)

theorem digitsValue_append (digits more : List Char) :
    digitsValue (digits ++ more) = digitsValue digits * 10 ^ more.length + digitsValue more := by
  have hfrom (start : Nat) : more.foldl (fun sum c => 10 * sum + (c.toNat - '0'.toNat)) start
      = start * 10 ^ more.length + digitsValue more := by
    induction more generalizing start with
    | nil => simp [digitsValue]
    | cons c rest ih =>
        rw [List.foldl_cons, digitsValue, List.foldl_cons, ih, ih, List.length_cons, pow_succ]
        ring
  rw [digitsValue, List.foldl_append]
  exact hfrom _

theorem digitsValue_replicate_zero (count : Nat) : digitsValue (List.replicate count '0') = 0 := by
  induction count with
  | zero => rfl
  | succ count ih =>
      rw [List.replicate_succ', digitsValue_append, ih]
      rfl

theorem digitsValue_zeros_append (count : Nat) (digits : List Char) :
    digitsValue (List.replicate count '0' ++ digits) = digitsValue digits := by
  rw [digitsValue_append, digitsValue_replicate_zero, Nat.zero_mul, Nat.zero_add]

theorem isAsciiDigit_iff {c : Char} : isAsciiDigit c = true ↔ 0x30 ≤ c.toNat ∧ c.toNat ≤ 0x39 := by
  simp only [isAsciiDigit, Bool.and_eq_true, decide_eq_true_eq, Char.le_def, UInt32.le_iff_toNat_le]
  rfl

/-- A run of digits. -/
def AllDigits (digits : List Char) : Prop := ∀ d ∈ digits, isAsciiDigit d = true

theorem allDigits_append {digits more : List Char} :
    AllDigits (digits ++ more) ↔ AllDigits digits ∧ AllDigits more :=
  List.forall_mem_append

theorem allDigits_zeros (count : Nat) : AllDigits (List.replicate count '0') := by
  intro d hd
  rw [List.eq_of_mem_replicate hd]
  rfl

theorem allDigits_toDigits (n : Nat) : AllDigits (Nat.toDigits 10 n) := fun _ hd =>
  Nat.isDigit_of_mem_toDigits (by decide) (by decide) hd

/-- The first digit of a positive number is not zero. -/
theorem exists_toDigits_eq_cons {n : Nat} (h : 0 < n) :
    ∃ c rest, Nat.toDigits 10 n = c :: rest ∧ c ≠ '0' := by
  induction n using Nat.strongRecOn with
  | ind n ih =>
      by_cases hsmall : n < 10
      · have hfirst : ∀ d < 10, 0 < d → d.digitChar ≠ '0' := by decide
        exact ⟨n.digitChar, [], Nat.toDigits_of_lt_base hsmall, hfirst n hsmall h⟩
      · have hsplit := Nat.toDigits_of_base_le (b := 10) (by decide) (Nat.le_of_not_lt hsmall)
        obtain ⟨c, rest, hdigits, hc⟩ := ih (n / 10) (by omega) (by omega)
        exact ⟨c, rest ++ [(n % 10).digitChar], by rw [hsplit, hdigits, List.cons_append], hc⟩

theorem lt_pow_length_toDigits (n : Nat) : n < 10 ^ (Nat.toDigits 10 n).length :=
  (Nat.length_toDigits_le_iff (by decide) Nat.length_toDigits_pos).mp (Nat.le_refl _)

theorem pow_length_toDigits_le {n : Nat} (h : 0 < n) : 10 ^ ((Nat.toDigits 10 n).length - 1) ≤ n := by
  rcases Nat.eq_zero_or_pos ((Nat.toDigits 10 n).length - 1) with hone | hmore
  · rw [hone]
    exact h
  · -- fewer digits would do for a smaller number
    by_contra hlt
    have hless := (Nat.length_toDigits_le_iff (by decide) hmore).mpr (Nat.lt_of_not_le hlt)
    omega

/-- A number below the long ones has few enough digits to be read. -/
theorem length_toDigits_le_maxDigits {n : Nat} (h : n < longNumbers) :
    (Nat.toDigits 10 n).length ≤ maxDigits := by
  have hsome : 0 < maxDigits := by decide
  unfold longNumbers at h
  generalize maxDigits = most at h hsome ⊢
  exact (Nat.length_toDigits_le_iff (by decide) hsome).mpr h

end Screencast.Text
