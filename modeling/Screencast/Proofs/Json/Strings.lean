import Screencast.Json.Writer
import Screencast.Proofs.Json.Codes

/-!
# Strings in data

Reading a string undoes writing it: each written code point is read as itself, surrogates too, so that no
text ends before its closing quote.  Only a text without surrogates can be encoded, and only such strings
come into a file.
-/

namespace Screencast

namespace Json

variable {opened rest : Text}

/-! ## One code point -/

/-- The escape for a control character is its number in four digits. -/
theorem exists_hexText_eq {n : Nat} (h : n < 0x20) :
    ∃ a b c d, Text.hexText 4 n = [a, b, c, d] ∧ unit? a b c d = some n := by
  have hdigits : ∀ n < 0x20, Text.hexText 4 n
      = ['0', '0', (n / 16).digitChar, (n % 16).digitChar] ∧
      unit? '0' '0' (n / 16).digitChar (n % 16).digitChar = some n := by
    decide
  exact ⟨_, _, _, _, hdigits n h⟩

/-- A letter behind a backslash is read as the character it stands for. -/
theorem namedEscape?_of_escapeLetter? {c letter : Char} (h : escapeLetter? (.char c) = some letter) :
    namedEscape? letter = some c := by
  have hofNat (n : Nat) (hn : CodePoint.toNat (.char c) = n) : Char.ofNat n = c := by
    rw [← hn]
    exact Char.ofNat_toNat c
  unfold escapeLetter? at h
  split at h
  iterate 5
    · next heq =>
      cases heq
      cases h
      rfl
  · split at h
    · next hbackspace =>
      cases h
      exact congrArg some (hofNat 8 hbackspace)
    · split at h
      · next hformFeed =>
        cases h
        exact congrArg some (hofNat 12 hformFeed)
      · cases h

theorem escapeLetter?_eq_none {c : Char} (h : escapeLetter? (.char c) = none) :
    c ≠ '"' ∧ c ≠ '\\' := by
  constructor <;> rintro rfl <;> cases h

/-- The three ways in which a character is written. -/
theorem writeCode_cases (c : Char) :
    (∃ letter, writeCode .unicode (.char c) = [.char '\\', .char letter] ∧
      namedEscape? letter = some c) ∨
    (c.toNat < 0x20 ∧ writeCode .unicode (.char c) = .ofChars (unitEscape c.toNat)) ∨
    (0x20 ≤ c.toNat ∧ c ≠ '"' ∧ c ≠ '\\' ∧ writeCode .unicode (.char c) = [.char c]) := by
  unfold writeCode
  cases hletter : escapeLetter? (.char c) with
  | some letter => exact .inl ⟨letter, rfl, namedEscape?_of_escapeLetter? hletter⟩
  | none =>
      obtain ⟨hquote, hbackslash⟩ := escapeLetter?_eq_none hletter
      dsimp only
      by_cases hcontrol : c.toNat < 0x20
      · have hcode : codeEscape (.char c) = unitEscape c.toNat :=
          if_pos (show c.toNat < 0x10000 by omega)
        rw [if_pos (.inl hcontrol), hcode]
        exact .inr (.inl ⟨hcontrol, rfl⟩)
      · refine .inr (.inr ⟨Nat.le_of_not_lt hcontrol, hquote, hbackslash, if_neg ?_⟩)
        rintro (h | ⟨h, -⟩)
        · exact hcontrol h
        · cases h

theorem ofNat_toNat_control {c : Char} (h : c.toNat < 0x20) : CodePoint.ofNat c.toNat = .char c := by
  have hbelow : ¬ (CodePoint.firstSurrogate ≤ c.toNat ∧
      c.toNat < CodePoint.firstSurrogate + 0x800) := by
    simp only [CodePoint.firstSurrogate]
    omega
  rw [CodePoint.ofNat, dif_neg hbelow, Char.ofNat_toNat]

/-- A surrogate is written as it is. -/
theorem writeCode_surrogate (index : Fin 0x800) :
    writeCode .unicode (.surrogate index) = [.surrogate index] := by
  have hlarge : ¬CodePoint.toNat (.surrogate index) < 0x20 := by
    simp only [CodePoint.toNat, CodePoint.firstSurrogate]
    omega
  have hletter : escapeLetter? (.surrogate index) = none := by
    simp only [escapeLetter?]
    rw [if_neg (by omega), if_neg (by omega)]
  simp [writeCode, hletter, hlarge]

/-- What is written for a code point is read as the code point. -/
theorem readCodeText_writeCode (c : CodePoint) (hrest : rest ≠ []) :
    readCodeText opened (writeCode .unicode c ++ rest) = prependCode c (readCodeText opened rest) := by
  cases c with
  | surrogate index =>
      rw [writeCode_surrogate]
      exact readCodeText_surrogate index
  | char c =>
      rcases writeCode_cases c with ⟨letter, hwritten, hletter⟩ | ⟨hcontrol, hwritten⟩ |
        ⟨hplain, hquote, hbackslash, hwritten⟩
      · rw [hwritten]
        exact readCodeText_named hletter
      · obtain ⟨x, y, z, w, htext, hunit⟩ := exists_hexText_eq hcontrol
        rw [hwritten, unitEscape, htext]
        simp only [Text.ofChars_cons, Text.ofChars_nil, List.cons_append, List.nil_append]
        rw [readCodeText_unit hunit (by omega) hrest, ofNat_toNat_control hcontrol]
      · rw [hwritten]
        exact readCodeText_plain hquote hbackslash (Nat.not_lt.mpr hplain)

/-! ## Strings -/

/-- A written string is read back up to its closing quote. -/
theorem readCodeText_writeString (s : Text) :
    readCodeText opened (s.flatMap (writeCode .unicode) ++ .char '"' :: rest) = .ok (s, rest) := by
  induction s with
  | nil => exact readCodeText_quote opened rest
  | cons c s ih =>
      rw [List.flatMap_cons, List.append_assoc,
        readCodeText_writeCode c (List.append_ne_nil_of_right_ne_nil _ (List.cons_ne_nil _ _)), ih]
      rfl

/-! ## Which strings can be encoded -/

theorem encodes_writeCode (c : CodePoint) :
    Text.Encodes (writeCode .unicode c) ↔ c.isSurrogate = false := by
  cases c with
  | char c =>
      refine iff_of_true ?_ rfl
      unfold writeCode
      split
      · simp
      · split
        · exact Text.encodes_ofChars _
        · simp
  | surrogate index =>
      rw [writeCode_surrogate]
      exact List.forall_mem_singleton

/-- A string is written with its surrogates. -/
theorem encodes_writeString (s : Text) :
    Text.Encodes (writeString .unicode s) ↔ Text.Encodes s := by
  rw [writeString, Text.encodes_char_cons, Text.encodes_append, Text.encodes_flatMap]
  simp only [encodes_writeCode]
  exact ⟨And.left, fun h => ⟨h, Text.encodes_ofString _⟩⟩

end Json

end Screencast
