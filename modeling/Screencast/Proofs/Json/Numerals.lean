import Screencast.Json.Reader
import Screencast.Proofs.Number.Shortest

/-!
# Numbers in data

The text of a number is a numeral: digits, perhaps a point with more digits, perhaps an exponent.
`readNumber?_numeral` says what a reader makes of a numeral, and `exists_numeral` which one the text of
a binary number is.
-/

namespace Screencast.Json

open Text (isAsciiDigit digitsValue AllDigits)

/-! ## Runs of digits -/

/-- A text that does not continue a run of digits. -/
def NoDigit (rest : List Char) : Prop := ∀ c ∈ rest.head?, isAsciiDigit c = false

theorem noDigit_cons {c : Char} {rest : List Char} (h : isAsciiDigit c = false) :
    NoDigit (c :: rest) := by
  intro d hd
  rw [List.head?_cons, Option.mem_some] at hd
  rw [← hd]
  exact h

section

variable {digits rest : List Char}

theorem takeWhile_digits (hdigits : AllDigits digits) (hrest : NoDigit rest) :
    (digits ++ rest).takeWhile isAsciiDigit = digits := by
  have hnone : rest.takeWhile isAsciiDigit = [] := by
    cases rest with
    | nil => rfl
    | cons c rest => rw [List.takeWhile_cons, hrest c rfl, if_neg Bool.false_ne_true]
  rw [List.takeWhile_append_of_pos hdigits, hnone, List.append_nil]

theorem dropWhile_digits (hdigits : AllDigits digits) (hrest : NoDigit rest) :
    (digits ++ rest).dropWhile isAsciiDigit = rest := by
  rw [List.dropWhile_append_of_pos hdigits]
  cases rest with
  | nil => rfl
  | cons c rest => rw [List.dropWhile_cons, hrest c rfl, if_neg Bool.false_ne_true]

end

/-! ## Numerals -/

/-- A text that does not continue a numeral. -/
structure Ends (rest : List Char) : Prop where
  noDigit : NoDigit rest
  noPoint : rest.head? ≠ some '.'
  noMark : rest.head? ≠ some 'e' ∧ rest.head? ≠ some 'E'

/-- The digits before a point: a zero alone, or digits that begin with another one. -/
def IsWhole (digits : List Char) : Prop :=
  digits = ['0'] ∨
    AllDigits digits ∧ ∃ first more, digits = first :: more ∧ first ≠ '0'

/-- The parts of a number without its sign. -/
structure Numeral where
  whole : List Char
  fraction : Option (List Char)
  power : Option Int

namespace Numeral

/-- The text of a numeral. -/
def chars (numeral : Numeral) : List Char :=
  numeral.whole ++ (numeral.fraction.elim [] ('.' :: ·)) ++
    (numeral.power.elim [] RealStyle.exponentText)

/-- The decimal that a numeral stands for. -/
def decimal (numeral : Numeral) : Decimal :=
  ⟨digitsValue (numeral.whole ++ numeral.fraction.getD []),
    numeral.power.getD 0 - (numeral.fraction.getD []).length⟩

/-- The parts are runs of digits. -/
structure Proper (numeral : Numeral) : Prop where
  whole : IsWhole numeral.whole
  fraction : ∀ digits ∈ numeral.fraction, digits ≠ [] ∧ AllDigits digits

end Numeral

variable {digits rest : List Char}

theorem IsWhole.allDigits (h : IsWhole digits) : AllDigits digits := by
  rcases h with rfl | ⟨hdigits, -⟩
  · exact List.forall_mem_singleton.mpr rfl
  · exact hdigits

theorem readWhole?_append (hwhole : IsWhole digits) (hrest : NoDigit rest) :
    readWhole? (digits ++ rest) = some (digits, rest) := by
  rcases hwhole with rfl | ⟨hdigits, first, more, rfl, hfirst⟩
  · rfl
  · have hdigit := hdigits first List.mem_cons_self
    have htake := takeWhile_digits hdigits hrest
    have hdrop := dropWhile_digits hdigits hrest
    rw [List.cons_append] at htake hdrop ⊢
    unfold readWhole?
    split
    · next heq =>
      cases heq
      exact absurd rfl hfirst
    · next heq =>
      cases heq
      rw [if_pos hdigit, htake, hdrop]
    · next heq => cases heq

theorem readFraction_some (hsome : digits ≠ []) (hdigits : AllDigits digits)
    (hrest : NoDigit rest) : readFraction ('.' :: (digits ++ rest)) = (some digits, rest) := by
  have hset : digits.isEmpty = false := List.isEmpty_eq_false_iff.mpr hsome
  simp only [readFraction, takeWhile_digits hdigits hrest, dropWhile_digits hdigits hrest, hset,
    Bool.false_eq_true, if_false]

theorem readFraction_none (hrest : rest.head? ≠ some '.') : readFraction rest = (none, rest) := by
  unfold readFraction
  split
  · exact absurd rfl hrest
  · rfl

theorem readPower_some (power : Int) (hrest : NoDigit rest) :
    readPower (RealStyle.exponentText power ++ rest) = (some power, rest) := by
  have hdigits : AllDigits (List.replicate (2 - (Nat.toDigits 10 power.natAbs).length) '0'
      ++ Nat.toDigits 10 power.natAbs) :=
    Text.allDigits_append.mpr ⟨Text.allDigits_zeros _, Text.allDigits_toDigits _⟩
  have hvalue : digitsValue (List.replicate (2 - (Nat.toDigits 10 power.natAbs).length) '0'
      ++ Nat.toDigits 10 power.natAbs) = power.natAbs := by
    rw [Text.digitsValue_zeros_append, Text.digitsValue_toDigits]
  have hsome : List.replicate (2 - (Nat.toDigits 10 power.natAbs).length) '0'
      ++ Nat.toDigits 10 power.natAbs ≠ [] :=
    List.append_ne_nil_of_right_ne_nil _ (List.ne_nil_of_length_pos Nat.length_toDigits_pos)
  simp only [RealStyle.exponentText, List.cons_append]
  generalize List.replicate (2 - (Nat.toDigits 10 power.natAbs).length) '0'
    ++ Nat.toDigits 10 power.natAbs = digits at hdigits hvalue hsome ⊢
  have hset : digits.isEmpty = false := List.isEmpty_eq_false_iff.mpr hsome
  by_cases hsign : power < 0
  · simp only [readPower, hsign, if_true, Text.readSign, true_or, takeWhile_digits hdigits hrest,
      dropWhile_digits hdigits hrest, hset, Bool.false_eq_true, if_false, hvalue]
    rw [show -(power.natAbs : Int) = power by omega]
  · simp only [readPower, hsign, if_true, Text.readSign, true_or, takeWhile_digits hdigits hrest,
      dropWhile_digits hdigits hrest, hset, Bool.false_eq_true, if_false, hvalue]
    rw [show (power.natAbs : Int) = power by omega]

theorem readPower_none (hrest : rest.head? ≠ some 'e' ∧ rest.head? ≠ some 'E') :
    readPower rest = (none, rest) := by
  unfold readPower
  split
  · next mark rest =>
    rw [if_neg]
    rintro (rfl | rfl)
    · exact hrest.1 rfl
    · exact hrest.2 rfl
  · rfl

namespace Numeral

variable {numeral : Numeral}

/-- The parts of a numeral are read one after the other. -/
theorem readParts (hproper : numeral.Proper) (hends : Ends rest) :
    ∃ afterWhole afterFraction, readWhole? (numeral.chars ++ rest) = some (numeral.whole, afterWhole) ∧
      readFraction afterWhole = (numeral.fraction, afterFraction) ∧
      readPower afterFraction = (numeral.power, rest) := by
  obtain ⟨whole, fraction, power⟩ := numeral
  obtain ⟨hwhole, hfraction⟩ := hproper
  have hpower : ∃ afterFraction, power.elim [] RealStyle.exponentText ++ rest = afterFraction ∧
      NoDigit afterFraction ∧ afterFraction.head? ≠ some '.' ∧
      readPower afterFraction = (power, rest) := by
    cases power with
    | none => exact ⟨rest, rfl, hends.noDigit, hends.noPoint, readPower_none hends.noMark⟩
    | some power =>
        exact ⟨_, rfl, noDigit_cons rfl, by rw [Option.elim_some]; exact nofun,
          readPower_some power hends.noDigit⟩
  obtain ⟨afterFraction, htext, hdigit, hpoint, hreadPower⟩ := hpower
  simp only [chars, List.append_assoc, htext]
  cases fraction with
  | none =>
      exact ⟨afterFraction, afterFraction, readWhole?_append hwhole hdigit, readFraction_none hpoint,
        hreadPower⟩
  | some digits =>
      obtain ⟨hsome, hdigits⟩ := hfraction digits rfl
      exact ⟨'.' :: (digits ++ afterFraction), afterFraction, readWhole?_append hwhole (noDigit_cons rfl),
        readFraction_some hsome hdigits hdigit, hreadPower⟩

/-- A numeral begins with a digit. -/
theorem exists_chars_eq_cons (hproper : numeral.Proper) :
    ∃ first more, numeral.chars = first :: more ∧ isAsciiDigit first = true := by
  have hdigits := IsWhole.allDigits hproper.whole
  have hwhole : numeral.whole ≠ [] := by
    rcases hproper.whole with hzero | ⟨-, first, more, hcons, -⟩
    · rw [hzero]
      exact List.cons_ne_nil _ _
    · rw [hcons]
      exact List.cons_ne_nil _ _
  obtain ⟨first, more, hcons⟩ := List.exists_cons_of_ne_nil hwhole
  have hfirst : first ∈ numeral.whole := by
    rw [hcons]
    exact List.mem_cons_self
  refine ⟨first, more ++ (numeral.fraction.elim [] ('.' :: ·) ++
    numeral.power.elim [] RealStyle.exponentText), ?_, hdigits first hfirst⟩
  rw [chars, hcons, List.append_assoc, List.cons_append]

end Numeral

/-- The text of a sign. -/
def signText (negative : Bool) : List Char := if negative then ['-'] else []

/-- What a numeral with a sign is read as. -/
def Numeral.reading (negative : Bool) (numeral : Numeral) (rest : List Char) : Reading Json :=
  match numeral.fraction, numeral.power with
  | none, none =>
    if Text.maxDigits < numeral.whole.length then .error (.limit (.digits numeral.whole.length))
    else
      let n : Int := digitsValue numeral.whole
      .ok (.int (if negative then -n else n), rest)
  | _, _ =>
    .ok (.real (.ofDecimal negative numeral.decimal.significand numeral.decimal.exponent), rest)

theorem readNumber?_numeral (negative : Bool) {numeral : Numeral} (hproper : numeral.Proper)
    (hends : Ends rest) :
    readNumber? (signText negative ++ (numeral.chars ++ rest)) =
      some (numeral.reading negative rest) := by
  obtain ⟨afterWhole, afterFraction, hwhole, hfraction, hpower⟩ := numeral.readParts hproper hends
  obtain ⟨first, more, hcons, hfirst⟩ := numeral.exists_chars_eq_cons hproper
  unfold readNumber?
  split
  next negative' body heq =>
    obtain ⟨rfl, rfl⟩ : negative = negative' ∧ numeral.chars ++ rest = body := by
      cases negative with
      | true =>
          cases heq
          exact ⟨rfl, rfl⟩
      | false =>
          simp only [signText, Bool.false_eq_true, if_false, List.nil_append, hcons,
            List.cons_append] at heq ⊢
          split at heq
          · next hminus =>
            -- a digit is no minus sign
            cases hminus
            exact absurd hfirst (by decide)
          · cases heq
            exact ⟨rfl, rfl⟩
    simp only [hwhole, Option.bind_eq_bind, Option.bind_some, hfraction, hpower]
    obtain ⟨whole, fraction, power⟩ := numeral
    cases fraction <;> cases power <;> rfl

theorem readWord?_word {word : List Char × Json} (h : word ∈ words) (rest : List Char) :
    readWord? (word.1 ++ rest) = some (word.2, rest) := by
  simp only [words, List.mem_cons, List.not_mem_nil, or_false] at h
  rcases h with rfl | rfl | rfl | rfl | rfl | rfl <;> rfl

/-- Words begin with two characters that are no digits. -/
theorem exists_word_eq_cons {word : List Char × Json} (h : word ∈ words) :
    ∃ first second more, word.1 = first :: second :: more ∧ isAsciiDigit first = false ∧
      isAsciiDigit second = false := by
  simp only [words, List.mem_cons, List.not_mem_nil, or_false] at h
  rcases h with rfl | rfl | rfl | rfl | rfl | rfl <;> exact ⟨_, _, _, rfl, rfl, rfl⟩

/-- A numeral with a sign is no word. -/
theorem readWord?_numeral (rest : List Char) (negative : Bool) {numeral : Numeral} (hproper : numeral.Proper) :
    readWord? (signText negative ++ (numeral.chars ++ rest)) = none := by
  obtain ⟨first, more, hcons, hfirst⟩ := numeral.exists_chars_eq_cons hproper
  have hdiffers {c : Char} (h : isAsciiDigit c = false) : (c == first) = false := by
    rw [beq_eq_false_iff_ne]
    rintro rfl
    rw [hfirst] at h
    cases h
  rw [hcons, readWord?, Option.map_eq_none_iff, List.find?_eq_none]
  intro word hword
  obtain ⟨letter, next, others, htext, hletter, hnext⟩ := exists_word_eq_cons hword
  rw [htext, Bool.not_eq_true]
  cases negative with
  | false =>
      simp only [signText, Bool.false_eq_true, if_false, List.nil_append, List.cons_append,
        List.isPrefixOf_cons_cons, hdiffers hletter, Bool.false_and]
  | true =>
      simp only [signText, if_true, List.cons_append, List.nil_append, List.isPrefixOf_cons_cons,
        hdiffers hnext, Bool.false_and, Bool.and_false]

/-! ## The texts of numbers -/

theorem isWhole_toDigits (n : Nat) : IsWhole (Nat.toDigits 10 n) := by
  rcases Nat.eq_zero_or_pos n with rfl | hn
  · exact .inl rfl
  · obtain ⟨first, more, hcons, hfirst⟩ := Text.exists_toDigits_eq_cons hn
    exact .inr ⟨Text.allDigits_toDigits n, first, more, hcons, hfirst⟩

theorem proper_toDigits (n : Nat) : (⟨Nat.toDigits 10 n, none, none⟩ : Numeral).Proper :=
  ⟨isWhole_toDigits n, nofun⟩

theorem integerText_eq (n : Int) :
    integerText n = signText (n < 0) ++ (⟨Nat.toDigits 10 n.natAbs, none, none⟩ : Numeral).chars := by
  simp only [integerText, signText, Numeral.chars, Option.elim_none, List.append_nil,
    decide_eq_true_eq]
  split <;> rfl

/-- An integer is read back, unless it has too many digits. -/
theorem reading_toDigits {n : Int} (hlength : n.natAbs < Text.longNumbers) (rest : List Char) :
    (⟨Nat.toDigits 10 n.natAbs, none, none⟩ : Numeral).reading (n < 0) rest = .ok (.int n, rest) := by
  have hdigits : ¬ Text.maxDigits < (Nat.toDigits 10 n.natAbs).length :=
    Nat.not_lt.mpr (Text.length_toDigits_le_maxDigits hlength)
  have hvalue : (if n < 0 then -(n.natAbs : Int) else n.natAbs) = n := by
    split <;> omega
  simp only [Numeral.reading, if_neg hdigits, Text.digitsValue_toDigits, decide_eq_true_eq, hvalue]

theorem proper_fraction {whole digits : List Char} {power : Option Int} (hwhole : IsWhole whole)
    (hsome : digits ≠ []) (hdigits : AllDigits digits) :
    (⟨whole, some digits, power⟩ : Numeral).Proper := by
  refine ⟨hwhole, fun fraction hfraction => ?_⟩
  cases hfraction
  exact ⟨hsome, hdigits⟩

/-- A numeral for a decimal, with a point or an exponent. -/
structure Denotes (numeral : Numeral) (d : Decimal) : Prop where
  proper : numeral.Proper
  real : numeral.fraction ≠ none ∨ numeral.power ≠ none
  value : numeral.decimal.value = d.value

section

variable {digits : List Char}

/-- Digits far behind the point. -/
theorem denotes_small (zeros : Nat) (hdigits : AllDigits digits)
    (hsome : digits ≠ []) :
    Denotes ⟨['0'], some (List.replicate zeros '0' ++ digits), none⟩
      ⟨digitsValue digits, -(zeros + digits.length : Nat)⟩ where
  proper := proper_fraction (.inl rfl) (List.append_ne_nil_of_right_ne_nil _ hsome)
    (Text.allDigits_append.mpr ⟨Text.allDigits_zeros zeros, hdigits⟩)
  real := .inl nofun
  value := by
    have hvalue : digitsValue (['0'] ++ (List.replicate zeros '0' ++ digits)) = digitsValue digits := by
      rw [← List.append_assoc, List.singleton_append, ← List.replicate_succ,
        Text.digitsValue_zeros_append]
    simp only [Numeral.decimal, Option.getD_some, Option.getD_none, hvalue, List.length_append,
      List.length_replicate, zero_sub]

/-- Digits on both sides of the point. -/
theorem denotes_split {before after : List Char} (hbefore : IsWhole before)
    (hafter : AllDigits after) (hsome : after ≠ []) :
    Denotes ⟨before, some after, none⟩ ⟨digitsValue (before ++ after), -after.length⟩ where
  proper := proper_fraction hbefore hsome hafter
  real := .inl nofun
  value := by
    simp only [Numeral.decimal, Option.getD_some, Option.getD_none, zero_sub]

/-- Digits and zeros before the point. -/
theorem denotes_large {zeros : Nat} (hwhole : IsWhole (digits ++ List.replicate zeros '0')) :
    Denotes ⟨digits ++ List.replicate zeros '0', some ['0'], none⟩ ⟨digitsValue digits, zeros⟩ where
  proper := proper_fraction hwhole (List.cons_ne_nil _ _) (Text.allDigits_zeros 1)
  real := .inl nofun
  value := by
    have hvalue : digitsValue (digits ++ List.replicate zeros '0' ++ ['0'])
        = digitsValue digits * 10 ^ (zeros + 1) := by
      rw [List.append_assoc, ← List.replicate_succ', Text.digitsValue_append,
        Text.digitsValue_replicate_zero, List.length_replicate, Nat.add_zero]
    simp only [Numeral.decimal, Option.getD_some, Option.getD_none, hvalue, Decimal.value,
      List.length_singleton]
    rw [Nat.cast_mul, Nat.cast_pow, Nat.cast_ofNat, mul_assoc, ← zpow_natCast,
      ← zpow_add₀ (by norm_num), zero_sub, Nat.cast_succ, Nat.cast_one, add_neg_cancel_right]

/-- Digits with an exponent. -/
theorem denotes_scientific {first : Char} {more : List Char}
    (hdigits : AllDigits (first :: more)) (hfirst : first ≠ '0') (place : Int) :
    ∃ fraction, RealStyle.scientific (first :: more) place
        = (⟨[first], fraction, some place⟩ : Numeral).chars ∧
      Denotes ⟨[first], fraction, some place⟩ ⟨digitsValue (first :: more), place - more.length⟩ := by
  have hwhole : IsWhole [first] := by
    refine .inr ⟨fun d hd => hdigits d ?_, first, [], rfl, hfirst⟩
    rw [List.mem_singleton.mp hd]
    exact List.mem_cons_self
  cases more with
  | nil =>
      refine ⟨none, rfl, ⟨hwhole, nofun⟩, .inr nofun, ?_⟩
      simp only [Numeral.decimal, Option.getD_none, Option.getD_some, List.append_nil]
  | cons second more =>
      have hmore : AllDigits (second :: more) := fun d hd => hdigits d (List.mem_cons_of_mem _ hd)
      refine ⟨some (second :: more), rfl, proper_fraction hwhole (List.cons_ne_nil _ _) hmore,
        .inr nofun, ?_⟩
      simp only [Numeral.decimal, Option.getD_some, List.singleton_append]

end

theorem denotes_positional {digits : List Char} (hdigits : AllDigits digits)
    {first : Char} {more : List Char} (hcons : digits = first :: more) (hfirst : first ≠ '0')
    (place : Int) :
    ∃ numeral, RealStyle.positional digits place = numeral.chars ∧
      Denotes numeral ⟨digitsValue digits, place - digits.length + 1⟩ := by
  have hsome : digits ≠ [] := by
    rw [hcons]
    exact List.cons_ne_nil _ _
  have hlength := List.length_pos_iff.mpr hsome
  unfold RealStyle.positional
  split
  · next hsmall =>
    refine ⟨⟨['0'], some (List.replicate (-place - 1).toNat '0' ++ digits), none⟩, ?_, ?_⟩
    · simp [Numeral.chars]
    · have hdenotes := denotes_small (-place - 1).toNat hdigits hsome
      rwa [show -(((-place - 1).toNat + digits.length : Nat) : Int) = place - digits.length + 1 by
        omega] at hdenotes
  · next hlarge =>
    dsimp only
    by_cases hall : digits.length ≤ place.toNat + 1
    · have hnone : digits.drop (place.toNat + 1) = [] := List.drop_eq_nil_of_le hall
      rw [hnone, List.take_of_length_le hall]
      refine ⟨⟨digits ++ List.replicate (place.toNat + 1 - digits.length) '0', some ['0'], none⟩, ?_,
        ?_⟩
      · simp [Numeral.chars]
      · have hwhole : IsWhole (digits ++ List.replicate (place.toNat + 1 - digits.length) '0') := by
          refine .inr ⟨Text.allDigits_append.mpr ⟨hdigits, Text.allDigits_zeros _⟩, first,
            more ++ List.replicate (place.toNat + 1 - digits.length) '0', ?_, hfirst⟩
          rw [hcons, List.cons_append]
        have hdenotes := denotes_large hwhole
        rwa [show ((place.toNat + 1 - digits.length : Nat) : Int) = place - digits.length + 1 by
          omega] at hdenotes
    · have hfraction : digits.drop (place.toNat + 1) ≠ [] := by
        rw [Ne, List.drop_eq_nil_iff]
        exact hall
      have hwhole : IsWhole (digits.take (place.toNat + 1)) := by
        refine .inr ⟨fun d hd => hdigits d (List.mem_of_mem_take hd), first, more.take place.toNat, ?_,
          hfirst⟩
        rw [hcons, List.take_succ_cons]
      have hdenotes := denotes_split hwhole (fun d hd => hdigits d (List.mem_of_mem_drop hd)) hfraction
      rw [List.take_append_drop, List.length_drop] at hdenotes
      refine ⟨⟨digits.take (place.toNat + 1), some (digits.drop (place.toNat + 1)), none⟩, ?_, ?_⟩
      · rw [Nat.sub_eq_zero_of_le (Nat.le_of_not_le hall), List.replicate_zero, List.append_nil,
          if_neg (by rwa [List.isEmpty_iff])]
        simp [Numeral.chars]
      · rwa [show -((digits.length - (place.toNat + 1) : Nat) : Int) = place - digits.length + 1 by
          omega] at hdenotes

/-- The text of a binary number is a numeral for the shortest decimal of the number. -/
theorem exists_denotes {m : Nat} {e : Int} (negative : Bool) (hcanonical : Binary64.Canonical m e)
    (hm : 0 < m) :
    ∃ numeral, RealStyle.data.text (.finite negative m e) = signText negative ++ numeral.chars ∧
      Denotes numeral (Binary64.shortest m e) := by
  have hdecimal := (Binary64.near_shortest hcanonical hm).significand_pos hm
  simp only [RealStyle.text, if_neg hm.ne']
  generalize Binary64.shortest m e = d at hdecimal ⊢
  obtain ⟨c, x⟩ := d
  dsimp only at hdecimal ⊢
  have hdigits := Text.allDigits_toDigits c
  have hvalue := Text.digitsValue_toDigits c
  obtain ⟨first, more, hcons, hfirst⟩ := Text.exists_toDigits_eq_cons hdecimal
  split
  · obtain ⟨numeral, htext, hdenotes⟩ :=
      denotes_positional hdigits hcons hfirst (x + (Nat.toDigits 10 c).length - 1)
    refine ⟨numeral, by rw [htext]; rfl, ?_⟩
    rwa [hvalue, show x + ((Nat.toDigits 10 c).length : Int) - 1 - (Nat.toDigits 10 c).length + 1 = x
      by omega] at hdenotes
  · rw [hcons] at hdigits hvalue ⊢
    obtain ⟨fraction, htext, hdenotes⟩ :=
      denotes_scientific hdigits hfirst (x + (first :: more).length - 1)
    refine ⟨_, by rw [htext]; rfl, ?_⟩
    rwa [hvalue, show x + ((first :: more).length : Int) - 1 - more.length = x by
      rw [List.length_cons]; omega] at hdenotes

/-- The text of a binary number is a numeral that is read as the number. -/
theorem exists_numeral {m : Nat} {e : Int} (negative : Bool) (hcanonical : Binary64.Canonical m e) :
    ∃ numeral : Numeral, numeral.Proper ∧
      RealStyle.data.text (.finite negative m e) = signText negative ++ numeral.chars ∧
      ∀ rest, numeral.reading negative rest = .ok (.real (.finite negative m e), rest) := by
  rcases Nat.eq_zero_or_pos m with rfl | hm
  · obtain rfl : e = Binary64.leastExponent := hcanonical.full.resolve_left (by decide)
    refine ⟨⟨['0'], some ['0'], none⟩, ?_, ?_, fun rest => rfl⟩
    · exact proper_fraction (.inl rfl) (List.cons_ne_nil _ _) (Text.allDigits_zeros 1)
    · cases negative <;> rfl
  · obtain ⟨numeral, htext, hproper, hreal, hvalue⟩ := exists_denotes negative hcanonical hm
    refine ⟨numeral, hproper, htext, fun rest => ?_⟩
    rw [← Binary64.ofDecimal_shortest negative hcanonical hm hvalue]
    obtain ⟨whole, fraction, power⟩ := numeral
    cases fraction with
    | none =>
        cases power with
        | none => exact (hreal.elim (absurd rfl) (absurd rfl))
        | some power => rfl
    | some digits => rfl

end Screencast.Json
