import Screencast.Json.Codes
import Screencast.Proofs.Text.Encodes

/-!
# Two readers

On characters `Json.readCodes` reads what `Json.read` reads: `readCodes_ofChars`.  The readers of strings,
values, items and members go through the same cases one by one, and their results differ in the type of what
is left of the text, which `codes` makes up for.
-/

namespace Screencast

namespace Text

@[simp] theorem ofChars_nil : ofChars [] = [] := rfl

@[simp] theorem ofChars_cons (c : Char) (cs : List Char) : ofChars (c :: cs) = .char c :: ofChars cs :=
  rfl

theorem ofChars_append (first second : List Char) :
    ofChars (first ++ second) = ofChars first ++ ofChars second :=
  List.map_append

@[simp] theorem length_ofChars (cs : List Char) : (ofChars cs).length = cs.length := List.length_map _

@[simp] theorem isEmpty_ofChars (cs : List Char) : (ofChars cs).isEmpty = cs.isEmpty := List.isEmpty_map

@[simp] theorem ofChars_eq_nil {cs : List Char} : ofChars cs = [] ↔ cs = [] := List.map_eq_nil_iff

theorem ofChars_eq_cons {cs : List Char} {c : CodePoint} {rest : Text} :
    ofChars cs = c :: rest ↔ ∃ d more, cs = d :: more ∧ .char d = c ∧ ofChars more = rest :=
  List.map_eq_cons_iff

theorem replaced_ofChars (cs : List Char) : replaced (ofChars cs) = cs := by
  rw [replaced, ofChars, List.map_map]
  exact List.map_id cs

end Text

namespace Json

open Text (ofChars_nil ofChars_cons ofChars_eq_cons length_ofChars isEmpty_ofChars replaced_ofChars)

/-- What was read, with the text after it as a text. -/
def codes {α : Type} (reading : Reading α) : CodeReading α :=
  reading.map fun (value, rest) => (value, Text.ofChars rest)

@[simp] theorem codes_ok {α : Type} (value : α) (rest : List Char) :
    codes (.ok (value, rest)) = .ok (value, Text.ofChars rest) := rfl

@[simp] theorem codes_error {α : Type} (fault : Fault) :
    codes (.error fault : Reading α) = .error fault := rfl

theorem codes_prepend (c : CodePoint) (reading : Reading Text) :
    codes (prepend c reading) = prependCode c (codes reading) := by
  cases reading <;> rfl

@[simp] theorem codeUnit?_char (a b c d : Char) : codeUnit? a b c d = unit? a b c d := rfl

/-! ## Strings -/

section

variable {opened rest : Text}

theorem readCodeText_quote (opened rest : Text) :
    readCodeText opened (.char '"' :: rest) = .ok ([], rest) := by
  rw [readCodeText]

theorem readCodeText_named {letter named : Char} (h : namedEscape? letter = some named) :
    readCodeText opened (.char '\\' :: .char letter :: rest)
      = prependCode named (readCodeText opened rest) := by
  have hletter : letter ≠ 'u' := by
    rintro rfl
    cases h
  rw [readCodeText]
  · simp only [h]
  all_goals simp_all

theorem readCodeText_unit {a b c d : Char} {unit : Nat} (hunit : unit? a b c d = some unit)
    (hsmall : unit < 0xd800) (hrest : rest ≠ []) :
    readCodeText opened (.char '\\' :: .char 'u' :: .char a :: .char b :: .char c :: .char d :: rest)
      = prependCode (.ofNat unit) (readCodeText opened rest) := by
  rw [readCodeText, if_neg (by rwa [List.isEmpty_iff])]
  simp only [codeUnit?_char, hunit]
  split
  · rw [if_neg (by omega)]
  · rfl

theorem readCodeText_plain {c : Char} (hquote : c ≠ '"') (hbackslash : c ≠ '\\')
    (hcontrol : ¬ c.toNat < 0x20) :
    readCodeText opened (.char c :: rest) = prependCode c (readCodeText opened rest) := by
  rw [readCodeText]
  · rw [if_neg hcontrol]
  all_goals simp_all

theorem readCodeText_control {c : Char} (hcontrol : c.toNat < 0x20) :
    readCodeText opened (.char c :: rest)
      = .error (.malformed .controlCharacter (rest.length + 1)) := by
  have hdiffers {d : Char} (hd : 0x20 ≤ d.toNat) : c ≠ d := by
    rintro rfl
    omega
  have hquote : c ≠ '"' := hdiffers (by decide)
  have hbackslash : c ≠ '\\' := hdiffers (by decide)
  rw [readCodeText]
  · rw [if_pos hcontrol]
  all_goals simp_all

end

theorem readCodeText_ofChars (opened text : List Char) :
    readCodeText (Text.ofChars opened) (Text.ofChars text) = codes (readText opened text) := by
  fun_induction readText opened text
  -- the string ends, or the text does
  case case1 | case2 | case3 => simp [readCodeText, codes, Except.map]
  -- a number that is none or has nothing behind it
  case case4 | case5 => simp_all [readCodeText, codes, Except.map]
  -- a number and another one behind it, with which it may form a pair
  case case6 =>
    simp only [ofChars_cons]
    rw [readCodeText]
    simp_all [codes, Except.map]
  case case7 | case8 | case9 =>
    simp only [ofChars_cons]
    rw [readCodeText]
    simp_all [codes_prepend]
  -- a number with no other one behind it
  case case10 a b c d unit hunit rest hnoPair hrest ih =>
    simp only [ofChars_cons]
    rw [readCodeText]
    simp only [codeUnit?_char, hunit, isEmpty_ofChars, if_neg hrest, codes_prepend, ← ih]
    split
    · next heq =>
      simp only [ofChars_eq_cons] at heq
      obtain ⟨_, _, rfl, ⟨⟩, _, _, rfl, ⟨⟩, e, _, rfl, rfl, f, _, rfl, rfl, g, _, rfl, rfl, h, more,
        rfl, rfl, -⟩ := heq
      exact (hnoPair e f g h more rfl).elim
    · rfl
  case case11 rest hshort =>
    simp only [ofChars_cons]
    rw [readCodeText]
    · simp [codes, Except.map]
    · simp only [ofChars_eq_cons]
      rintro _ _ _ _ _ ⟨a, _, rfl, -, b, _, rfl, -, c, _, rfl, -, d, more, rfl, -, -⟩
      exact hshort a b c d more rfl
  case case12 letter rest _ _ named hnamed ih =>
    rw [ofChars_cons, ofChars_cons, readCodeText_named hnamed, ih, codes_prepend]
  case case13 => simp_all [readCodeText, codes, Except.map]
  case case14 hcontrol =>
    rw [ofChars_cons, readCodeText_control hcontrol, length_ofChars]
    rfl
  case case15 c rest hquote hend _ _ hmore hcontrol ih =>
    have hbackslash : c ≠ '\\' := by
      rintro rfl
      cases rest with
      | nil => exact hend rfl rfl
      | cons d rest => exact hmore d rest rfl rfl
    rw [ofChars_cons, readCodeText_plain hquote hbackslash hcontrol, ih, codes_prepend]

/-! ## Words and numbers -/

theorem skipCodeGap_ofChars (text : List Char) :
    skipCodeGap (Text.ofChars text) = Text.ofChars (skipGap text) :=
  List.dropWhile_map

theorem front_append (cs : List Char) (text : Text) :
    front (Text.ofChars cs ++ text) = cs ++ front text := by
  rw [front, List.takeWhile_append_of_pos, Text.chars_append, Text.chars_ofChars, front]
  exact fun c hc => congrArg not (Text.encodes_ofChars cs c hc)

theorem back_append (cs : List Char) (text : Text) :
    back (Text.ofChars cs ++ text) = back text := by
  rw [back, List.dropWhile_append_of_pos, back]
  exact fun c hc => congrArg not (Text.encodes_ofChars cs c hc)

theorem ofChars_front_append_back (text : Text) : Text.ofChars (front text) ++ back text = text := by
  have hencodes : ∀ c ∈ text.takeWhile fun c => !c.isSurrogate, c.isSurrogate = false := by
    intro c hc
    simpa using List.all_eq_true.mp List.all_takeWhile c hc
  rw [front, Text.ofChars_chars hencodes, back, List.takeWhile_append_dropWhile]

theorem front_back (text : Text) : front (back text) = [] := by
  have hnot := List.head?_dropWhile_not (fun c : CodePoint => !c.isSurrogate) text
  unfold front back
  cases hback : text.dropWhile fun c => !c.isSurrogate with
  | nil => rfl
  | cons c rest =>
      rw [hback] at hnot
      rw [List.takeWhile_cons, if_neg (Bool.eq_false_iff.mp hnot)]
      rfl

theorem front_ofChars (cs : List Char) : front (Text.ofChars cs) = cs := by
  have happend := front_append cs []
  rwa [List.append_nil, show front [] = [] from rfl, List.append_nil] at happend

theorem back_ofChars (cs : List Char) : back (Text.ofChars cs) = [] := by
  have happend := back_append cs []
  rwa [List.append_nil] at happend

/-- A text that begins as neither a string nor an array nor an object does. -/
def IsBare (text : Text) : Prop :=
  text.head? ≠ some (.char '"') ∧ text.head? ≠ some (.char '[') ∧ text.head? ≠ some (.char '\x7b')

theorem bare_or_opening (text : Text) :
    IsBare text ∨ (∃ rest, text = .char '"' :: rest) ∨ (∃ rest, text = .char '[' :: rest) ∨
      ∃ rest, text = .char '\x7b' :: rest := by
  cases text with
  | nil => exact .inl ⟨nofun, nofun, nofun⟩
  | cons c rest =>
      by_cases hquote : c = .char '"'
      · exact .inr (.inl ⟨rest, congrArg (· :: rest) hquote⟩)
      by_cases hbracket : c = .char '['
      · exact .inr (.inr (.inl ⟨rest, congrArg (· :: rest) hbracket⟩))
      by_cases hbrace : c = .char '\x7b'
      · exact .inr (.inr (.inr ⟨rest, congrArg (· :: rest) hbrace⟩))
      · have hhead {d : CodePoint} (h : c ≠ d) : (c :: rest).head? ≠ some d :=
          fun heq => h (Option.some.inj heq)
        exact .inl ⟨hhead hquote, hhead hbracket, hhead hbrace⟩

theorem readCodeValue_bare {text : Text} (h : IsBare text) (fuel depth : Nat) :
    readCodeValue (fuel + 1) depth text = match readScalar? (front text) with
      | some reading => reading.map fun (value, rest) => (value, Text.ofChars rest ++ back text)
      | none => .error (.malformed .value text.length) := by
  rewrite [readCodeValue]
  · rfl
  all_goals
    rintro _ rfl
    simp [IsBare] at h

theorem readValue_bare {text : List Char} (h : IsBare (Text.ofChars text)) (fuel depth : Nat) :
    readValue (fuel + 1) depth text = match readScalar? text with
      | some reading => reading
      | none => .error (.malformed .value text.length) := by
  rewrite [readValue]
  · unfold readScalar?
    cases readWord? text <;> rfl
  all_goals
    rintro _ rfl
    simp [IsBare] at h

/-! ## Values -/

theorem readCodeValue_ofChars_succ {fuel : Nat}
    (hitems : ∀ depth text, readCodeItems fuel depth (Text.ofChars text)
      = codes (readItems fuel depth text))
    (hmembers : ∀ depth text, readCodeMembers fuel depth (Text.ofChars text)
      = codes (readMembers fuel depth text)) (depth : Nat) (text : List Char) :
    readCodeValue (fuel + 1) depth (Text.ofChars text) = codes (readValue (fuel + 1) depth text) := by
  rcases bare_or_opening (Text.ofChars text) with hbare | ⟨rest, hstring⟩ | ⟨rest, harray⟩ |
    ⟨rest, hobject⟩
  · rw [readCodeValue_bare hbare, readValue_bare hbare, front_ofChars, back_ofChars, length_ofChars]
    cases readScalar? text with
    | none => rfl
    | some reading => simp only [List.append_nil, codes]
  · obtain ⟨_, rest, rfl, ⟨⟩, rfl⟩ := ofChars_eq_cons.mp hstring
    rw [ofChars_cons, readCodeValue, readValue, readCodeText_ofChars, readString]
    cases readText rest rest <;> rfl
  · obtain ⟨_, rest, rfl, ⟨⟩, rfl⟩ := ofChars_eq_cons.mp harray
    cases depth with
    | zero => rfl
    | succ depth =>
        rw [ofChars_cons, readCodeValue, readValue, skipCodeGap_ofChars]
        generalize skipGap rest = text
        split
        · next heq =>
          obtain ⟨_, _, rfl, ⟨⟩, rfl⟩ := ofChars_eq_cons.mp heq
          rfl
        · next hopen =>
          split
          · next rest => exact (hopen _ (ofChars_cons _ rest)).elim
          · rw [hitems]
            cases readItems fuel depth text <;> rfl
  · obtain ⟨_, rest, rfl, ⟨⟩, rfl⟩ := ofChars_eq_cons.mp hobject
    cases depth with
    | zero => rfl
    | succ depth =>
        rw [ofChars_cons, readCodeValue, readValue, skipCodeGap_ofChars]
        generalize skipGap rest = text
        split
        · next heq =>
          obtain ⟨_, _, rfl, ⟨⟩, rfl⟩ := ofChars_eq_cons.mp heq
          rfl
        · next hopen =>
          split
          · next rest => exact (hopen _ (ofChars_cons _ rest)).elim
          · rw [hmembers]
            cases readMembers fuel depth text <;> rfl

theorem readCodeItems_ofChars_succ {fuel : Nat}
    (hvalue : ∀ depth text, readCodeValue fuel depth (Text.ofChars text)
      = codes (readValue fuel depth text))
    (hitems : ∀ depth text, readCodeItems fuel depth (Text.ofChars text)
      = codes (readItems fuel depth text)) (depth : Nat) (text : List Char) :
    readCodeItems (fuel + 1) depth (Text.ofChars text) = codes (readItems (fuel + 1) depth text) := by
  rw [readCodeItems, readItems, hvalue]
  rcases readValue fuel depth text with fault | ⟨item, rest⟩
  · rfl
  · simp only [codes_ok, bind, Except.bind, skipCodeGap_ofChars]
    generalize skipGap rest = text
    split
    · next heq =>
      obtain ⟨_, _, rfl, ⟨⟩, rfl⟩ := ofChars_eq_cons.mp heq
      rfl
    · next heq =>
      obtain ⟨_, rest, rfl, ⟨⟩, rfl⟩ := ofChars_eq_cons.mp heq
      rw [skipCodeGap_ofChars, hitems]
      change _ = codes ((readItems fuel depth (skipGap rest)).bind
        fun others => .ok (item :: others.1, others.2))
      cases readItems fuel depth (skipGap rest) <;> rfl
    · next hclosed hcomma =>
      split
      · next rest => exact (hclosed _ (ofChars_cons _ rest)).elim
      · next rest => exact (hcomma _ (ofChars_cons _ rest)).elim
      · rw [length_ofChars]
        rfl

theorem readCodeMembers_ofChars_succ {fuel : Nat}
    (hvalue : ∀ depth text, readCodeValue fuel depth (Text.ofChars text)
      = codes (readValue fuel depth text))
    (hmembers : ∀ depth text, readCodeMembers fuel depth (Text.ofChars text)
      = codes (readMembers fuel depth text)) (depth : Nat) (text : List Char) :
    readCodeMembers (fuel + 1) depth (Text.ofChars text)
      = codes (readMembers (fuel + 1) depth text) := by
  rw [readCodeMembers.eq_def, readMembers.eq_def]
  dsimp only
  split
  · next heq =>
    obtain ⟨_, rest, rfl, ⟨⟩, rfl⟩ := ofChars_eq_cons.mp heq
    rw [readCodeText_ofChars]
    simp only [readString]
    rcases readText rest rest with fault | ⟨key, rest⟩
    · rfl
    · simp only [codes_ok, bind, Except.bind, skipCodeGap_ofChars]
      generalize skipGap rest = text
      split
      · next heq =>
        obtain ⟨_, rest, rfl, ⟨⟩, rfl⟩ := ofChars_eq_cons.mp heq
        simp only [skipCodeGap_ofChars, hvalue]
        rcases readValue fuel depth (skipGap rest) with fault | ⟨value, rest⟩
        · rfl
        · simp only [codes_ok, skipCodeGap_ofChars]
          generalize skipGap rest = text
          split
          · next heq =>
            obtain ⟨_, _, rfl, ⟨⟩, rfl⟩ := ofChars_eq_cons.mp heq
            rfl
          · next heq =>
            obtain ⟨_, rest, rfl, ⟨⟩, rfl⟩ := ofChars_eq_cons.mp heq
            rw [skipCodeGap_ofChars, hmembers]
            change _ = codes ((readMembers fuel depth (skipGap rest)).bind
              fun others => .ok ((key, value) :: others.1, others.2))
            cases readMembers fuel depth (skipGap rest) <;> rfl
          · next hclosed hcomma =>
            split
            · next rest => exact (hclosed _ (ofChars_cons _ rest)).elim
            · next rest => exact (hcomma _ (ofChars_cons _ rest)).elim
            · rw [length_ofChars]
              rfl
      · next hcolon =>
        split
        · next rest => exact (hcolon _ (ofChars_cons _ rest)).elim
        · rw [length_ofChars]
          rfl
  · next hquote =>
    split
    · next rest => exact (hquote _ (ofChars_cons _ rest)).elim
    · rw [length_ofChars]
      rfl

/-- On characters, and with the same fuel, values, items and members are read as before. -/
theorem readCode_ofChars (fuel : Nat) :
    (∀ depth text, readCodeValue fuel depth (Text.ofChars text) = codes (readValue fuel depth text)) ∧
    (∀ depth text, readCodeItems fuel depth (Text.ofChars text) = codes (readItems fuel depth text)) ∧
    ∀ depth text, readCodeMembers fuel depth (Text.ofChars text)
      = codes (readMembers fuel depth text) := by
  induction fuel with
  | zero =>
      refine ⟨fun _ text => ?_, fun _ text => ?_, fun _ text => ?_⟩ <;>
        simp [readCodeValue, readCodeItems, readCodeMembers, readValue, readItems, readMembers]
  | succ fuel ih =>
      obtain ⟨hvalue, hitems, hmembers⟩ := ih
      exact ⟨readCodeValue_ofChars_succ hitems hmembers, readCodeItems_ofChars_succ hvalue hitems,
        readCodeMembers_ofChars_succ hvalue hmembers⟩

/-! ## Texts -/

/-- On characters the two readers are one. -/
theorem readCodes_ofChars (text : List Char) : readCodes (Text.ofChars text) = read text := by
  have hhead : (Text.ofChars text).head? = some (.char (Char.ofNat 0xfeff)) ↔
      text.head? = some (Char.ofNat 0xfeff) := by
    cases text <;> simp
  unfold readCodes read
  simp only [hhead, length_ofChars, skipCodeGap_ofChars, (readCode_ofChars _).1, replaced_ofChars]
  split
  · rfl
  · rcases readValue (2 * text.length + 2) maxDepth (skipGap text) with (⟨cause, left⟩ | limit) |
      ⟨value, rest⟩
    · rfl
    · rfl
    · simp only [codes_ok, skipCodeGap_ofChars]
      rcases skipGap rest with _ | ⟨c, rest⟩
      · rfl
      · rw [ofChars_cons]
        simp only [List.length_cons, length_ofChars]

end Json

end Screencast
