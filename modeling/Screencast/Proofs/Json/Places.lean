import Screencast.Proofs.Json.Codes
import Screencast.Proofs.Json.Numerals

/-!
# Places in a text

Outside of strings, brackets and braces say how many arrays and objects are open at a place of a text.
What is read of a part of a value lies between two places: a word or a number changes nothing about them
(`Past`), and behind a string one is outside of it again (`readCodeText_place`).
-/

namespace Screencast.Json

open Text (isAsciiDigit AllDigits)

/-- Whether a place lies in a string, and there behind a backslash. -/
inductive Mode where
  | outside
  | quoted
  | escaped
  deriving DecidableEq

/-- A place in a text, with so many arrays and objects open. -/
structure Place where
  mode : Mode
  opened : Nat
  deriving DecidableEq

namespace Place

/-- The place behind a code point. -/
def step (place : Place) (c : CodePoint) : Place :=
  match place.mode with
  | .outside =>
    if c = .char '"' then { place with mode := .quoted }
    else if c = .char '[' ∨ c = .char '\x7b' then { place with opened := place.opened + 1 }
    else if c = .char ']' ∨ c = .char '\x7d' then { place with opened := place.opened - 1 }
    else place
  | .quoted =>
    if c = .char '"' then { place with mode := .outside }
    else if c = .char '\\' then { place with mode := .escaped }
    else place
  | .escaped => { place with mode := .quoted }

/-- The place behind a text. -/
def after (place : Place) (text : Text) : Place := text.foldl step place

theorem after_append (place : Place) (first second : Text) :
    place.after (first ++ second) = (place.after first).after second :=
  List.foldl_append

/-- A character that changes nothing about a place outside of strings. -/
def Plain (c : Char) : Prop := ∀ n, step ⟨.outside, n⟩ c = ⟨.outside, n⟩

theorem plain_of_not_mem {c : Char} (h : c ∉ ['"', '[', ']', '\x7b', '\x7d']) : Plain c := by
  simp only [List.mem_cons, List.not_mem_nil, or_false, not_or] at h
  intro n
  simp [step, h]

theorem plain_of_isAsciiDigit {c : Char} (h : isAsciiDigit c = true) : Plain c := by
  refine plain_of_not_mem fun hmem => ?_
  simp only [List.mem_cons, List.not_mem_nil, or_false] at hmem
  rcases hmem with rfl | rfl | rfl | rfl | rfl <;> cases h

theorem plain_of_isGap {c : Char} (h : isGap c = true) : Plain c := by
  refine plain_of_not_mem fun hmem => ?_
  simp only [List.mem_cons, List.not_mem_nil, or_false] at hmem
  rcases hmem with rfl | rfl | rfl | rfl | rfl <;> cases h

end Place

open Place (Plain)

/-! ## Words and numbers -/

/-- A text goes on with the rest behind characters that change nothing about a place. -/
def Past (text rest : List Char) : Prop := ∃ before, (∀ c ∈ before, Plain c) ∧ before ++ rest = text

namespace Past

variable {text middle rest : List Char}

theorem refl (text : List Char) : Past text text := ⟨[], nofun, rfl⟩

theorem trans (h : Past text middle) (h' : Past middle rest) : Past text rest := by
  obtain ⟨first, hfirst, rfl⟩ := h
  obtain ⟨second, hsecond, rfl⟩ := h'
  exact ⟨first ++ second, List.forall_mem_append.mpr ⟨hfirst, hsecond⟩, List.append_assoc ..⟩

theorem cons {c : Char} (hc : Plain c) (rest : List Char) : Past (c :: rest) rest :=
  ⟨[c], List.forall_mem_singleton.mpr hc, rfl⟩

theorem dropWhile {p : Char → Bool} (hp : ∀ c, p c = true → Plain c) (text : List Char) :
    Past text (text.dropWhile p) :=
  ⟨text.takeWhile p, fun c hc => hp c (List.all_eq_true.mp List.all_takeWhile c hc),
    List.takeWhile_append_dropWhile⟩

/-- Behind plain characters one is where one was. -/
theorem after_eq {before : List Char} (h : ∀ c ∈ before, Plain c) (n : Nat) :
    Place.after ⟨.outside, n⟩ (Text.ofChars before) = ⟨.outside, n⟩ := by
  induction before with
  | nil => rfl
  | cons c before ih =>
      obtain ⟨hc, hbefore⟩ := List.forall_mem_cons.mp h
      rw [Text.ofChars_cons, Place.after, List.foldl_cons, hc n]
      exact ih hbefore

end Past

variable {text rest : List Char}

theorem readWhole?_eq_some {whole : List Char} (h : readWhole? text = some (whole, rest)) :
    whole ++ rest = text ∧ IsWhole whole ∧ (whole = ['0'] ∨ NoDigit rest) := by
  unfold readWhole? at h
  split at h
  · cases h
    exact ⟨rfl, .inl rfl, .inl rfl⟩
  · next c more hzero =>
    split at h
    · next hdigit =>
      cases h
      refine ⟨List.takeWhile_append_dropWhile, .inr ⟨?_, c, more.takeWhile isAsciiDigit, ?_, hzero⟩,
        .inr fun d hd => ?_⟩
      · exact List.all_eq_true.mp List.all_takeWhile
      · rw [List.takeWhile_cons, if_pos hdigit]
      · have hnot := List.head?_dropWhile_not isAsciiDigit (c :: more)
        rw [Option.mem_def.mp hd] at hnot
        exact hnot
    · cases h
  · cases h

theorem readFraction_past (text : List Char) : Past text (readFraction text).2 := by
  unfold readFraction
  split
  · next rest =>
    dsimp only
    split
    · exact .refl _
    · exact (Past.cons (Place.plain_of_not_mem (by decide)) rest).trans
        (.dropWhile (fun _ => Place.plain_of_isAsciiDigit) rest)
  · exact .refl _

theorem readSign_past (text : List Char) : Past text (Text.readSign text).2 := by
  unfold Text.readSign
  split
  · exact .cons (Place.plain_of_not_mem (by decide)) _
  · exact .cons (Place.plain_of_not_mem (by decide)) _
  · exact .refl _

theorem readPower_past (text : List Char) : Past text (readPower text).2 := by
  unfold readPower
  split
  · next mark rest =>
    split
    · next hmark =>
      have hplain : Plain mark := by
        rcases hmark with rfl | rfl <;> exact Place.plain_of_not_mem (by decide)
      dsimp only
      split
      · exact .refl _
      · exact ((Past.cons hplain rest).trans (readSign_past rest)).trans
          (.dropWhile (fun _ => Place.plain_of_isAsciiDigit) _)
    · exact .refl _
  · exact .refl _

theorem readWord?_past {reading : Json × List Char} (h : readWord? text = some reading) :
    reading.1 ∈ words.map Prod.snd ∧ Past text reading.2 := by
  simp only [readWord?, Option.map_eq_some_iff] at h
  obtain ⟨word, hword, rfl⟩ := h
  have hmem := List.mem_of_find?_eq_some hword
  have hprefix := List.find?_some hword
  obtain ⟨after, happend⟩ := List.isPrefixOf_iff_prefix.mp hprefix
  refine ⟨List.mem_map_of_mem hmem, word.1, ?_, ?_⟩
  · have hplain : ∀ word ∈ words, word.1.all (· ∉ ['"', '[', ']', '\x7b', '\x7d']) := by decide
    have hchars := List.all_eq_true.mp (hplain word hmem)
    exact fun c hc => Place.plain_of_not_mem (of_decide_eq_true (hchars c hc))
  · rw [← happend, List.drop_left]

/-! ## Strings -/

/-- Hexadecimal digits change nothing about a place in a string. -/
theorem quoted_of_hexValue? {c : Char} {value : Nat} (h : Text.hexValue? c = some value) (n : Nat) :
    Place.step ⟨.quoted, n⟩ c = ⟨.quoted, n⟩ := by
  have hdiffers {d : Char} (hd : Text.hexValue? d = none) : c ≠ d := by
    rintro rfl
    rw [hd] at h
    cases h
  have hquote : c ≠ '"' := hdiffers rfl
  have hbackslash : c ≠ '\\' := hdiffers rfl
  simp [Place.step, hquote, hbackslash]

theorem quoted_of_codeUnit? {a b c d : CodePoint} {unit : Nat} (h : codeUnit? a b c d = some unit)
    (n : Nat) : Place.after ⟨.quoted, n⟩ [.char '\\', .char 'u', a, b, c, d] = ⟨.quoted, n⟩ := by
  simp only [codeUnit?, unit?, Option.bind_eq_bind, Option.bind_eq_some_iff] at h
  obtain ⟨a', ha, b', hb, c', hc, d', hd, _, ha', _, hb', _, hc', _, hd', -⟩ := h
  have hchar {x : CodePoint} {x' : Char} (hx : x.char? = some x') : x = .char x' := by
    cases x with
    | char x => exact congrArg CodePoint.char (Option.some.inj hx)
    | surrogate index => cases hx
  rw [hchar ha, hchar hb, hchar hc, hchar hd]
  change Place.after ⟨.quoted, n⟩ [.char a', .char b', .char c', .char d'] = _
  simp only [Place.after, List.foldl_cons, List.foldl_nil, quoted_of_hexValue? ha',
    quoted_of_hexValue? hb', quoted_of_hexValue? hc', quoted_of_hexValue? hd']

/-- What comes of reading a string: behind it one is outside of it. -/
inductive StringOutcome (text : Text) : CodeReading Text → Prop where
  | read {s rest : Text} (before : Text) (split : before ++ rest = text)
      (place : ∀ n, Place.after ⟨.quoted, n⟩ before = ⟨.outside, n⟩) :
      StringOutcome text (.ok (s, rest))
  | malformed {cause : Malformation} {left : Nat} :
      StringOutcome text (.error (.malformed cause left))

theorem StringOutcome.prepend {text rest : Text} {reading : CodeReading Text}
    (h : StringOutcome rest reading) (before : Text) (hsplit : before ++ rest = text)
    (hplace : ∀ n, Place.after ⟨.quoted, n⟩ before = ⟨.quoted, n⟩) (c : CodePoint) :
    StringOutcome text (prependCode c reading) := by
  cases h with
  | read inner split place =>
      refine .read (before ++ inner) (by rw [List.append_assoc, split, hsplit]) fun n => ?_
      rw [Place.after_append, hplace, place]
  | malformed => exact .malformed

theorem outcome_readCodeText (opened text : Text) :
    StringOutcome text (readCodeText opened text) := by
  fun_induction readCodeText opened text
  case case2 index rest ih =>
    exact ih.prepend [.surrogate index] rfl (fun n => rfl) _
  case case3 rest => exact .read [.char '"'] rfl fun n => rfl
  case case9 a b c d high hhigh e f g h more _ low hlow _ _ _ ih =>
    refine ih.prepend ([.char '\\', .char 'u', a, b, c, d] ++ [.char '\\', .char 'u', e, f, g, h]) rfl
      (fun n => ?_) _
    rw [Place.after_append, quoted_of_codeUnit? hhigh, quoted_of_codeUnit? hlow]
  case case10 a b c d high hhigh e f g h more _ _ _ _ _ ih =>
    exact ih.prepend [.char '\\', .char 'u', a, b, c, d] rfl (quoted_of_codeUnit? hhigh) _
  case case11 a b c d high hhigh e f g h more _ _ ih =>
    exact ih.prepend [.char '\\', .char 'u', a, b, c, d] rfl (quoted_of_codeUnit? hhigh) _
  case case12 a b c d high hhigh rest _ _ ih =>
    exact ih.prepend [.char '\\', .char 'u', a, b, c, d] rfl (quoted_of_codeUnit? hhigh) _
  case case14 letter rest _ _ named _ ih =>
    exact ih.prepend [.char '\\', .char letter] rfl (fun n => rfl) _
  case case17 c rest hquote hend hsurrogate _ _ hescape _ ih =>
    have hbackslash : c ≠ '\\' := by
      rintro rfl
      rcases rest with _ | ⟨c | index, rest⟩
      · exact hend rfl rfl
      · exact hescape c rest rfl rfl
      · exact hsurrogate index rest rfl rfl
    refine ih.prepend [.char c] rfl (fun n => ?_) _
    have hquote : c ≠ '"' := hquote
    simp [Place.after, Place.step, hquote, hbackslash]
  -- every other text is malformed
  all_goals exact .malformed

/-! ## Texts beyond the limits -/

/-- A place where a value may begin: what is before it ends with a gap or with the mark of an array, an
object, a key or a comma. -/
def ValueStart (before : Text) : Prop :=
  ∀ c ∈ before.getLast?, c.satisfies isGap = true ∨
    c ∈ ([.char '[', .char '\x7b', .char ':', .char ','] : Text)

theorem ValueStart.append {first second : Text} (h : ValueStart first) (h' : ValueStart second) :
    ValueStart (first ++ second) := by
  intro c hc
  rw [List.getLast?_append] at hc
  cases hsecond : second.getLast? with
  | none =>
      rw [hsecond] at hc
      exact h c hc
  | some d =>
      rw [hsecond] at hc
      exact h' c (hsecond.trans hc)

theorem valueStart_gap {gap : Text} (h : ∀ c ∈ gap, c.satisfies isGap = true) : ValueStart gap :=
  fun c hc => .inl (h c (List.mem_of_getLast? hc))

theorem valueStart_mark {c : CodePoint} {gap : Text}
    (hc : c ∈ ([.char '[', .char '\x7b', .char ':', .char ','] : Text))
    (hgap : ∀ c ∈ gap, c.satisfies isGap = true) (before : Text) :
    ValueStart (before ++ c :: gap) := by
  have hmark : ValueStart (before ++ [c]) := by
    intro d hd
    rw [List.getLast?_concat] at hd
    cases hd
    exact .inr hc
  have hstart := hmark.append (valueStart_gap hgap)
  rwa [List.append_assoc, List.singleton_append] at hstart

/-- A text in which no numeral goes on. -/
structure EndsNumeral (rest : List Char) : Prop where
  noDigit : NoDigit rest
  noFraction : (readFraction rest).1 = none
  noPower : (readPower rest).1 = none

/-- An integer that stands in a text with more digits than are read. -/
structure LongInteger (text before : Text) (negative : Bool) (digits : List Char) (rest : Text) :
    Prop where
  split : before ++ (Text.ofChars (signText negative ++ digits) ++ rest) = text
  start : ValueStart before
  whole : IsWhole digits
  long : Text.maxDigits < digits.length
  ends : EndsNumeral (front rest)

/-- Outside of its strings, a text has an integer of more digits than are read. -/
def HasLongInteger (text : Text) : Prop :=
  ∃ before negative digits rest, LongInteger text before negative digits rest ∧
    (Place.after ⟨.outside, 0⟩ before).mode = .outside

/-- At some place of a text, more arrays and objects are open than are read. -/
def TooDeep (text : Text) : Prop :=
  ∃ before rest, before ++ rest = text ∧
    Place.after ⟨.outside, 0⟩ before = ⟨.outside, maxDepth + 1⟩

end Screencast.Json
