import Screencast.Proofs.Json.Numerals
import Screencast.Proofs.Json.Strings

/-!
# Data on one line

No part of a written value holds a control character, whatever the strings hold.  So a value takes one
line, and no reader of lines parts it.
-/

namespace Screencast.Json

/-- A text without control characters, line ends among them. -/
def NoControl (text : List Char) : Prop := ∀ c ∈ text, 0x20 ≤ c.toNat

theorem noControl_append {first second : List Char} :
    NoControl (first ++ second) ↔ NoControl first ∧ NoControl second :=
  List.forall_mem_append

theorem noControl_cons {c : Char} {text : List Char} :
    NoControl (c :: text) ↔ 0x20 ≤ c.toNat ∧ NoControl text :=
  List.forall_mem_cons

theorem noControl_nil : NoControl [] := List.forall_mem_nil _

theorem noControl_of_all {text : List Char} (h : (text.all fun c => 0x20 ≤ c.toNat) = true) :
    NoControl text := fun c hc => of_decide_eq_true (List.all_eq_true.mp h c hc)

/-! ## Words and numbers -/

theorem noControl_word {word : List Char × Json} (h : word ∈ words) : NoControl word.1 := by
  simp only [words, List.mem_cons, List.not_mem_nil, or_false] at h
  rcases h with rfl | rfl | rfl | rfl | rfl | rfl <;> exact noControl_of_all rfl

theorem noControl_of_digits {digits : List Char} (h : Text.AllDigits digits) : NoControl digits := by
  intro d hd
  have hlow := (Text.isAsciiDigit_iff.mp (h d hd)).1
  omega

theorem noControl_exponentText (exponent : Int) : NoControl (RealStyle.exponentText exponent) := by
  have hsign : 0x20 ≤ (if exponent < 0 then '-' else '+').toNat := by
    split <;> decide
  rw [RealStyle.exponentText, noControl_append, noControl_cons, noControl_cons]
  exact ⟨⟨by decide, hsign, noControl_of_digits (Text.allDigits_zeros _)⟩,
    noControl_of_digits (Text.allDigits_toDigits _)⟩

theorem noControl_numeral (negative : Bool) {numeral : Numeral} (hproper : numeral.Proper) :
    NoControl (signText negative ++ numeral.chars) := by
  obtain ⟨whole, fraction, power⟩ := numeral
  rw [noControl_append, Numeral.chars, noControl_append, noControl_append]
  refine ⟨?sign, ⟨noControl_of_digits (IsWhole.allDigits hproper.whole), ?fraction⟩, ?power⟩
  case sign =>
    cases negative with
    | true => exact noControl_cons.mpr ⟨by decide, noControl_nil⟩
    | false => exact noControl_nil
  case fraction =>
    cases fraction with
    | none => exact noControl_nil
    | some digits => exact noControl_cons.mpr ⟨by decide, noControl_of_digits (hproper.fraction digits rfl).2⟩
  case power =>
    cases power with
    | none => exact noControl_nil
    | some power => exact noControl_exponentText power

/-! ## Strings -/

theorem noControl_writeCode (c : CodePoint) : NoControl (Text.chars (writeCode .unicode c)) := by
  cases c with
  | surrogate index =>
      rw [writeCode_surrogate]
      exact noControl_nil
  | char c =>
      rcases writeCode_cases c with ⟨letter, hwritten, hletter⟩ | ⟨hcontrol, hwritten⟩ |
        ⟨hplain, -, -, hwritten⟩
      · have hshown : 0x20 ≤ letter.toNat := by
          unfold namedEscape? at hletter
          split at hletter
          case h_9 => cases hletter
          all_goals decide
        rw [hwritten]
        exact noControl_cons.mpr ⟨by decide, noControl_cons.mpr ⟨hshown, noControl_nil⟩⟩
      · have hescape : ∀ n < 0x20, ((unitEscape n).all fun c => 0x20 ≤ c.toNat) = true := by decide
        rw [hwritten, Text.chars_ofChars]
        exact noControl_of_all (hescape c.toNat hcontrol)
      · rw [hwritten]
        exact noControl_cons.mpr ⟨hplain, noControl_nil⟩

theorem noControl_flatMap_writeCode (s : Text) :
    NoControl (Text.chars (s.flatMap (writeCode .unicode))) := by
  induction s with
  | nil => exact noControl_nil
  | cons c s ih =>
      rw [List.flatMap_cons, Text.chars_append, noControl_append]
      exact ⟨noControl_writeCode c, ih⟩

end Screencast.Json
