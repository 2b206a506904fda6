import Mathlib.Tactic.SplitIfs
import Screencast.Terminal.Stream

/-!
# The plain text of an output

`plainText` drops the escape sequences of an output and keeps the rest.  It only keeps track of where a
sequence begins and ends (`Phase`), not of what it asks for, so it is defined for every output.  A stream
gives the plain text of what it reads, as long as no sequence fails: `Stream.run_plain`.

Whatever is read in whatever phase, none of the characters that control a terminal is given out, except
line feeds and tabs: `plain_of_isSpecial`.
-/

namespace Screencast.Terminal

/-- Where an output stands, as far as it matters for its text. -/
inductive Phase where
  | text
  | escape
  /-- One character is to be dropped. -/
  | skip
  | control
  | commandCode
  | command
  | commandEscape
  deriving DecidableEq, Repr

/-- The phase that a state of a stream is in. -/
def State.phase : State → Phase
  | .ground => .text
  | .escape => .escape
  | .skip | .charset => .skip
  | .control _ _ _ => .control
  | .commandCode => .commandCode
  | .command => .command
  | .commandEscape => .commandEscape

/-- The characters that do not end a control sequence: marks, digits and separators of its parameters,
and movements, which act at once. -/
def continuesControl (c : Char) : Bool :=
  c = '?' || isMovement c || c = ' ' || c = '>' || c = ';' || Text.isDigit c

namespace Phase

/-- The phase after a character. -/
def next (c : Char) : Phase → Phase
  | .text =>
    if c = Terminal.escape then .escape
    else if c = controlIntroducer then .control
    else if c = commandIntroducer then .commandCode
    else .text
  | .escape =>
    match c with
    | '[' => .control
    | ']' => .commandCode
    | '#' | '(' | ')' | '%' => .skip
    | _ => .text
  | .skip => .text
  | .control => if continuesControl c then .control else if c = '$' then .skip else .text
  | .commandCode => if c = 'R' ∨ c = 'P' then .text else .command
  | .command =>
    if c = Terminal.escape then .commandEscape
    else if c = terminator ∨ c = bell then .text
    else .command
  | .commandEscape => if c = '\\' then .text else .command

/-- What a character contributes to the text. -/
def plain (c : Char) : Phase → List Char
  | .text =>
    if c = Terminal.escape ∨ c = controlIntroducer ∨ c = commandIntroducer then []
    else if isMovement c then movementText c
    else if isIgnored c then []
    else [c]
  | .escape => if c = 'E' then ['\n'] else []
  | .control => if isMovement c then movementText c else if isCancel c then [c] else []
  | .skip | .commandCode | .command | .commandEscape => []

end Phase

/-- The text of characters without escape sequences. -/
def plainText (phase : Phase) : List Char → List Char
  | [] => []
  | c :: rest => phase.plain c ++ plainText (phase.next c) rest

theorem plainText_append (phase : Phase) (chars more : List Char) :
    plainText phase (chars ++ more)
      = plainText phase chars ++ plainText (chars.foldl (fun phase c => phase.next c) phase) more := by
  induction chars generalizing phase with
  | nil => rfl
  | cons c rest ih => simp only [List.cons_append, plainText, ih, List.foldl_cons, List.append_assoc]

/-! ## Streams give plain text -/

theorem eq_of_isCancel {c : Char} (h : isCancel c = true) :
    c = Char.ofNat 0x18 ∨ c = Char.ofNat 0x1a := by
  simp only [isCancel, Bool.or_eq_true, decide_eq_true_eq] at h
  rcases h with h | h
  · exact .inl (by rw [← h, Char.ofNat_toNat])
  · exact .inr (by rw [← h, Char.ofNat_toNat])

namespace Stream

variable (stream : Stream) (c : Char)

theorem ground_plain :
    (stream.ground c).text = Phase.text.plain c ∧
      (stream.ground c).stream.state.phase = Phase.text.next c := by
  simp only [ground, Phase.plain, Phase.next]
  split_ifs <;> simp_all [goto, State.phase]

theorem afterEscape_plain :
    (stream.afterEscape c).text = Phase.escape.plain c ∧
      (stream.afterEscape c).stream.state.phase = Phase.escape.next c := by
  simp only [afterEscape, Phase.plain, Phase.next]
  split <;> simp_all [goto, State.phase]

theorem finish_phase {stream next : Stream} {parameters : List Nat} {digits : List Char}
    {isPrivate : Bool} {c : Char} (h : stream.finish parameters digits isPrivate c = .ok next) :
    next.state.phase = if c = ';' then .control else .text := by
  unfold finish at h
  cases hvalue : parameter digits.reverse with
  | error fault => simp [hvalue, bind, Except.bind] at h
  | ok value =>
      simp only [hvalue, bind, Except.bind, pure, Except.pure] at h
      split_ifs at h ⊢
      · cases h
        rfl
      · split at h
        · cases h
          rfl
        · split at h
          · cases h
          · cases h
            rfl

theorem inControl_plain (parameters : List Nat) (digits : List Char) (isPrivate : Bool) :
    (stream.inControl parameters digits isPrivate c).text = Phase.control.plain c ∧
      ((stream.inControl parameters digits isPrivate c).fault = none →
        (stream.inControl parameters digits isPrivate c).stream.state.phase
          = Phase.control.next c) := by
  simp only [inControl, Phase.plain, Phase.next, continuesControl]
  by_cases hmark : c = '?'
  · subst hmark
    exact ⟨rfl, fun _ => rfl⟩
  by_cases hmovement : isMovement c = true
  · simp [hmark, hmovement, goto, State.phase]
  by_cases hblank : c = ' ' ∨ c = '>'
  · rcases hblank with rfl | rfl <;> exact ⟨rfl, fun _ => rfl⟩
  by_cases hcancel : isCancel c = true
  · rcases eq_of_isCancel hcancel with rfl | rfl <;> exact ⟨rfl, fun _ => rfl⟩
  by_cases hdigit : Text.isDigit c = true
  · simp [hmark, hmovement, hblank, hcancel, hdigit, goto, State.phase]
  by_cases hdollar : c = '$'
  · subst hdollar
    exact ⟨rfl, fun _ => rfl⟩
  simp only [hmark, hmovement, hblank, hcancel, hdigit, hdollar, if_false, Bool.false_eq_true]
  have hblanks : c ≠ ' ' ∧ c ≠ '>' := not_or.mp hblank
  cases hfinish : stream.finish parameters digits isPrivate c with
  | error fault => simp
  | ok next => simp [finish_phase hfinish, hblanks]

/-- A character contributes what it does in the phase of the stream, and unless it fails it leads to the
next phase. -/
theorem step_plain :
    (stream.step c).text = stream.state.phase.plain c ∧
      ((stream.step c).fault = none →
        (stream.step c).stream.state.phase = stream.state.phase.next c) := by
  simp only [step]
  cases stream.state with
  | ground => exact ⟨(stream.ground_plain c).1, fun _ => (stream.ground_plain c).2⟩
  | escape => exact ⟨(stream.afterEscape_plain c).1, fun _ => (stream.afterEscape_plain c).2⟩
  | skip => exact ⟨rfl, fun _ => rfl⟩
  | charset =>
      simp only [selectCharset]
      split <;> exact ⟨rfl, fun _ => rfl⟩
  | control parameters digits isPrivate =>
      exact stream.inControl_plain c parameters digits isPrivate
  | commandCode =>
      simp only [Phase.next, State.phase, goto]
      split_ifs <;> exact ⟨rfl, fun _ => rfl⟩
  | command =>
      simp only [Phase.next, State.phase, goto]
      split_ifs <;> exact ⟨rfl, fun _ => rfl⟩
  | commandEscape =>
      simp only [Phase.next, State.phase, goto]
      split_ifs <;> exact ⟨rfl, fun _ => rfl⟩

/-- A stream gives the plain text of what it reads up to a failure, and without one it ends in the phase
that the characters lead to. -/
theorem run_plain (chars : List Char) :
    (stream.run chars).text <+: plainText stream.state.phase chars ∧
      ((stream.run chars).fault = none →
        (stream.run chars).text = plainText stream.state.phase chars ∧
        (stream.run chars).stream.state.phase
          = chars.foldl (fun phase c => phase.next c) stream.state.phase) := by
  induction chars generalizing stream with
  | nil => exact ⟨List.prefix_rfl, fun _ => ⟨rfl, rfl⟩⟩
  | cons c rest ih =>
      obtain ⟨htext, hphase⟩ := stream.step_plain c
      rw [run, plainText, List.foldl_cons]
      cases hfault : (stream.step c).fault with
      | some fault =>
          simp only [htext]
          exact ⟨List.prefix_append _ _, nofun⟩
      | none =>
          rw [← hphase hfault]
          obtain ⟨hfirst, hall⟩ := ih (stream.step c).stream
          simp only [htext]
          refine ⟨(List.prefix_append_right_inj _).mpr hfirst, fun hrest => ?_⟩
          obtain ⟨hmore, hlast⟩ := hall hrest
          exact ⟨by rw [hmore], hlast⟩

end Stream

/-! ## Characters that control a terminal -/

/-- The numbers of the characters that are no text for a terminal: null, bell, backspace, tab, line feed,
vertical tab, form feed, carriage return, both shifts, escape, delete, and the two introducers. -/
def specialNumbers : List Nat :=
  [0x00, 0x07, 0x08, 0x09, 0x0a, 0x0b, 0x0c, 0x0d, 0x0e, 0x0f, 0x1b, 0x7f, 0x9b, 0x9d]

def isSpecial (c : Char) : Bool := specialNumbers.contains c.toNat

theorem mem_movementText {c d : Char} (h : d ∈ movementText c) : d = '\n' ∨ d = '\t' := by
  unfold movementText at h
  split_ifs at h
  · exact .inr (List.mem_singleton.mp h)
  · exact .inl (List.mem_singleton.mp h)
  · cases h

/-- A character that does not introduce, move or do nothing is not special. -/
theorem isSpecial_eq_false {c : Char}
    (hintroduces : ¬(c = escape ∨ c = controlIntroducer ∨ c = commandIntroducer))
    (hmovement : isMovement c = false) (hignored : isIgnored c = false) : isSpecial c = false := by
  have hne {n : Nat} (h : c ≠ Char.ofNat n) : c.toNat ≠ n := by
    rintro rfl
    exact h (Char.ofNat_toNat c).symm
  have hescape : c.toNat ≠ 0x1b := hne fun h => hintroduces (.inl h)
  have hcontrol : c.toNat ≠ 0x9b := hne fun h => hintroduces (.inr (.inl h))
  have hcommand : c.toNat ≠ 0x9d := hne fun h => hintroduces (.inr (.inr h))
  have hacts : ¬(7 ≤ c.toNat ∧ c.toNat ≤ 13) := by simpa [isMovement] using hmovement
  simp only [isIgnored, Bool.or_eq_false_iff, decide_eq_false_iff_not] at hignored
  simp only [isSpecial, specialNumbers, List.contains_eq_mem, List.mem_cons, List.not_mem_nil, or_false,
    decide_eq_false_iff_not]
  omega

/-- Of the special characters only line feeds and tabs are given out, in whatever phase. -/
theorem plain_of_isSpecial {phase : Phase} {c d : Char} (h : d ∈ phase.plain c)
    (hd : isSpecial d = true) : d = '\n' ∨ d = '\t' := by
  cases phase with
  | text =>
      simp only [Phase.plain] at h
      split_ifs at h with hintroduces hmovement hignored
      · cases h
      · exact mem_movementText h
      · cases h
      · rw [List.mem_singleton.mp h, isSpecial_eq_false hintroduces (by simpa using hmovement)
          (by simpa using hignored)] at hd
        cases hd
  | escape =>
      simp only [Phase.plain] at h
      split_ifs at h
      · exact .inl (List.mem_singleton.mp h)
      · cases h
  | control =>
      simp only [Phase.plain] at h
      split_ifs at h with hmovement hcancel
      · exact mem_movementText h
      · obtain rfl := List.mem_singleton.mp h
        rcases eq_of_isCancel hcancel with rfl | rfl <;> cases hd
      · cases h
  | skip | commandCode | command | commandEscape => cases h

theorem plainText_of_isSpecial {phase : Phase} {chars : List Char} {d : Char}
    (h : d ∈ plainText phase chars) (hd : isSpecial d = true) : d = '\n' ∨ d = '\t' := by
  induction chars generalizing phase with
  | nil => cases h
  | cons c rest ih =>
      rcases List.mem_append.mp h with h | h
      · exact plain_of_isSpecial h hd
      · exact ih h

end Screencast.Terminal
