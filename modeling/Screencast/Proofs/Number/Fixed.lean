import Screencast.Proofs.Number.Bounds
import Screencast.Proofs.Number.Reaching
import Screencast.Proofs.Text.Digits

/-!
# Numbers with a fixed count of decimal places

`Spells` says what the text of a number with so many decimal places is, by the value of the number
alone: the digits of the nearest whole number of units in the last place.
-/

namespace Screencast.Binary64

/-- What stands before the digits of a number. -/
def minus (negative : Bool) : List Char := if negative then ['-'] else []

/-- The text of a number with so many decimal places. -/
inductive Spells (places : Nat) : Binary64 → List Char → Prop
  | nan : Spells places .nan "nan".toList
  | infinite (negative : Bool) : Spells places (.infinite negative) (minus negative ++ "inf".toList)
  | finite (negative : Bool) (significand : Nat) (exponent : Int) {units : Nat} {fraction : List Char}
    (nearest : NearestTo (significand * 2 ^ exponent * 10 ^ places) units)
    (length : fraction.length = places) (digits : Text.AllDigits fraction)
    (value : Text.digitsValue fraction = units % 10 ^ places) :
    Spells places (.finite negative significand exponent)
      (minus negative ++ Nat.toDigits 10 (units / 10 ^ places) ++ '.' :: fraction)

theorem spells_fixedText {places : Nat} (h : 0 < places) (x : Binary64) :
    Spells places x (fixedText places x) := by
  cases x with
  | nan => exact .nan
  | infinite negative => exact .infinite negative
  | finite negative significand exponent =>
      let units := roundQuotient ((magnitude significand exponent).1 * 10 ^ places)
        (magnitude significand exponent).2
      let fraction := Nat.toDigits 10 (units % 10 ^ places)
      have htext : fixedText places (.finite negative significand exponent)
          = minus negative ++ Nat.toDigits 10 (units / 10 ^ places) ++
            '.' :: (List.replicate (places - fraction.length) '0' ++ fraction) := by
        simp only [fixedText, Nat.pow_eq, units, fraction, minus]
        simp
      have hnearest : NearestTo (significand * 2 ^ exponent * 10 ^ places) units := by
        have hrounded := roundQuotient_nearest ((magnitude significand exponent).1 * 10 ^ places)
          (magnitude_den_pos significand exponent)
        rw [Nat.cast_mul, mul_div_right_comm] at hrounded
        push_cast at hrounded
        rwa [show ((magnitude significand exponent).1 : ℚ) / (magnitude significand exponent).2
          = significand * 2 ^ exponent from ofScaled_value significand exponent] at hrounded
      have hfew : fraction.length ≤ places :=
        (Nat.length_toDigits_le_iff (by decide) h).mpr (Nat.mod_lt _ (Nat.pow_pos (by decide)))
      rw [htext]
      refine .finite negative significand exponent hnearest ?length ?digits ?value
      case length =>
        rw [List.length_append, List.length_replicate]
        exact Nat.sub_add_cancel hfew
      case digits =>
        exact Text.allDigits_append.mpr ⟨Text.allDigits_zeros _, Text.allDigits_toDigits _⟩
      case value => rw [Text.digitsValue_zeros_append, Text.digitsValue_toDigits]

end Screencast.Binary64
