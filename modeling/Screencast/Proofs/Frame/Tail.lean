import Screencast.Proofs.Frame.Projects
import Screencast.Proofs.Text.Digits
import Screencast.Proofs.Text.Offsets

/-!
# A frame shows the end of the buffer

A frame has as many lines as fit on the screen.  Joined, they are the end of the buffer with the
cursor, from behind a line feed of the buffer on (`TailOf`).  With line numbers each of them stands behind
the number that it has in the whole buffer (`NumberedFrom`).  `project_tail` says both of every frame, and
which configurations have frames.
-/

namespace Screencast

namespace Text

/-- The number of lines of a text. -/
def lineTotal (text : Text) : Nat := text.count (.char '\n') + 1

/-- The number that the digits stand for with which a line begins. -/
def leadingNumber (line : Text) : Nat :=
  digitsValue (chars (line.takeWhile (CodePoint.satisfies isAsciiDigit)))

/-- Digits before a blank are read back. -/
theorem leadingNumber_digits {digits : List Char} (h : AllDigits digits) (line : Text) :
    leadingNumber (ofChars digits ++ " " ++ line) = digitsValue digits := by
  have hdigits : ∀ c ∈ ofChars digits, CodePoint.satisfies isAsciiDigit c = true := by
    intro c hc
    obtain ⟨d, hd, rfl⟩ := List.mem_map.mp hc
    exact h d hd
  have hblank : ((" " : Text) ++ line).takeWhile (CodePoint.satisfies isAsciiDigit) = [] := rfl
  rw [leadingNumber, List.append_assoc, List.takeWhile_append_of_pos hdigits, hblank,
    List.append_nil, chars_ofChars]

end Text

open Text

/-- The same configuration without line numbers. -/
def Config.unnumbered (config : Config) : Config := { config with lineNumbers := .bool false }

/-- A buffer with the cursor behind it, if the cursor is shown at this number of frames. -/
def Config.marked (config : Config) (glyph buffer : Text) (count : Int) : Text :=
  match config.cursorVisible count with
  | .ok true => buffer ++ glyph
  | _ => buffer

/-- The lines at the end of a buffer with its cursor, as many as fit on the screen. -/
structure TailOf (config : Config) (glyph buffer : Text) (count : Int) (lines : Frame) : Prop where
  length : lines.length = min config.lineCount buffer.lineTotal
  /-- What is not shown are the first lines of the buffer. -/
  joined : ∃ above, FirstLines buffer (buffer.lineTotal - lines.length) above ∧
    above ++ joinLines lines = config.marked glyph buffer count

/-- Lines behind their numbers, the first of which is given: each number has at least as many digits as
the width says, all the digits it needs, and no other digits than zeros in front of them. -/
structure NumberedFrom (width first : Nat) (lines frame : Frame) : Prop where
  length : frame.length = lines.length
  line : ∀ i line, lines[i]? = some line → ∃ digits,
    frame[i]? = some (ofChars digits ++ " " ++ line) ∧ AllDigits digits ∧
      digitsValue digits = first + i ∧
      digits.length = max width (Nat.toDigits 10 (first + i)).length
  readBack : frame.map leadingNumber = List.range' first lines.length

/-- Which frames a buffer has at a number of frames. -/
structure Projected (config : Config) (glyph buffer : Text) (count : Int) : Prop where
  returns : (∃ frame, project config buffer count = .ok frame) ↔ config.Projects
  plain : ∀ frame, project config buffer count = .ok frame → config.lineNumbers.isSet = false →
    TailOf config glyph buffer count frame
  numbered : ∀ frame, project config buffer count = .ok frame → config.lineNumbers.isSet = true →
    ∃ lines, project config.unnumbered buffer count = .ok lines ∧
      TailOf config glyph buffer count lines ∧
      NumberedFrom config.lineNumberWidth (buffer.lineTotal + 1 - lines.length) lines frame ∧
      (frame.map leadingNumber).getLast? = some buffer.lineTotal

namespace Frame

/-! ## Numbers -/

theorem allDigits_numberText (width number : Nat) : AllDigits (numberText width number) :=
  allDigits_append.mpr ⟨allDigits_zeros _, allDigits_toDigits number⟩

theorem digitsValue_numberText (width number : Nat) :
    digitsValue (numberText width number) = number := by
  rw [numberText, digitsValue_zeros_append, digitsValue_toDigits]

theorem length_numberText (width number : Nat) :
    (numberText width number).length = max width (Nat.toDigits 10 number).length := by
  rw [numberText, List.length_append, List.length_replicate]
  omega

theorem getElem?_numbered (width first : Nat) (lines : Frame) (i : Nat) :
    (numbered width first lines)[i]?
      = lines[i]?.map fun line => ofChars (numberText width (first + i)) ++ " " ++ line := by
  induction lines generalizing first i with
  | nil => rfl
  | cons line rest ih =>
      cases i with
      | zero => rfl
      | succ i =>
          rw [numbered, List.getElem?_cons_succ, List.getElem?_cons_succ, ih, Nat.add_assoc,
            Nat.add_comm 1 i]

theorem map_leadingNumber_numbered (width first : Nat) (lines : Frame) :
    (numbered width first lines).map leadingNumber = List.range' first lines.length := by
  induction lines generalizing first with
  | nil => rfl
  | cons line rest ih =>
      rw [numbered, List.map_cons, ih, leadingNumber_digits (allDigits_numberText width first),
        digitsValue_numberText, List.length_cons, List.range'_succ]

theorem numberedFrom_numbered (width first : Nat) (lines : Frame) :
    NumberedFrom width first lines (numbered width first lines) where
  length := by
    have hread := congrArg List.length (map_leadingNumber_numbered width first lines)
    rwa [List.length_map, List.length_range'] at hread
  line i line hline :=
    ⟨numberText width (first + i), by rw [getElem?_numbered, hline, Option.map_some],
      allDigits_numberText _ _, digitsValue_numberText _ _, length_numberText _ _⟩
  readBack := map_leadingNumber_numbered width first lines

/-! ## The lines that are shown -/

/-- The lines of a buffer, with the cursor behind the last one if it is shown. -/
def markedLines (glyph buffer : Text) (visible : Bool) : Frame :=
  let lines := splitLines buffer
  if visible then lines.dropLast ++ (lines.getLast?.map (· ++ glyph)).toList else lines

/-- With or without the cursor, it is the last line that something stands behind. -/
theorem exists_markedLines (glyph buffer : Text) (visible : Bool) :
    ∃ lines last more, splitLines buffer = lines ++ [last] ∧
      markedLines glyph buffer visible = lines ++ [last ++ more] ∧
      (if visible then buffer ++ glyph else buffer) = buffer ++ more := by
  obtain ⟨lines, last, hlines⟩ : ∃ lines last, splitLines buffer = lines ++ [last] :=
    ⟨_, _, (List.dropLast_concat_getLast (splitAt_ne_nil _ buffer)).symm⟩
  cases visible with
  | false => exact ⟨lines, last, [], hlines, by simp [markedLines, hlines], by simp⟩
  | true => exact ⟨lines, last, glyph, hlines, by simp [markedLines, hlines], rfl⟩

theorem length_markedLines (glyph buffer : Text) (visible : Bool) :
    (markedLines glyph buffer visible).length = buffer.lineTotal := by
  obtain ⟨lines, last, more, hlines, hmarked, -⟩ := exists_markedLines glyph buffer visible
  have hlength := length_splitLines buffer
  rw [hlines, List.length_append, List.length_singleton] at hlength
  rw [hmarked, List.length_append, List.length_singleton, hlength, lineTotal]

/-- The text of the lines is cut where the buffer is. -/
theorem exists_above (glyph buffer : Text) (visible : Bool) {k : Nat} (hk : k < buffer.lineTotal) :
    ∃ above, FirstLines buffer k above ∧
      above ++ joinLines ((markedLines glyph buffer visible).drop k)
        = if visible then buffer ++ glyph else buffer := by
  obtain ⟨lines, last, more, hlines, hmarked, htext⟩ := exists_markedLines glyph buffer visible
  have hsplit : k < (splitLines buffer).length := by rwa [length_splitLines]
  have hplace : lineStart (lines ++ [last ++ more]) k = lineStart (splitLines buffer) k := by
    refine lineStart_congr ?_
    rw [hlines, List.length_append, List.length_singleton] at hsplit
    have hle : k ≤ lines.length := Nat.lt_succ_iff.mp hsplit
    rw [hlines, List.take_append_of_le_length hle, List.take_append_of_le_length hle]
  have hstart : lineStart (splitLines buffer) k ≤ buffer.length := by
    have hle := lineStart_add_length_le (List.getElem?_eq_getElem hsplit)
    rw [joinLines_splitLines] at hle
    exact Nat.le_trans (Nat.le_add_right _ _) hle
  have hlast : k < (lines ++ [last ++ more]).length := by
    rwa [← hmarked, length_markedLines]
  refine ⟨_, firstLines_take buffer hsplit, ?_⟩
  rw [htext, hmarked, joinLines_drop hlast, joinLines_concat_append, ← hlines, joinLines_splitLines,
    hplace, List.drop_append_of_le_length hstart, ← List.append_assoc, List.take_append_drop]

/-! ## The window -/

variable {config : Config} {glyph buffer : Text} {count : Int} {frame : Frame}

theorem window_plain (h : config.lineNumbers.isSet = false) (lines : Frame) :
    window config lines = .ok (lines.drop (lines.length - config.lineCount)) := by
  simp only [window, h, Bool.not_false, if_true]

theorem eq_numbered_of_window {lines : Frame} (h : config.lineNumbers.isSet = true)
    (hwindow : window config lines = .ok frame) :
    frame = numbered config.lineNumberWidth (lines.length - config.lineCount + 1)
      (lines.drop (lines.length - config.lineCount)) := by
  simp only [window, h, Bool.not_true, Bool.false_eq_true, if_false] at hwindow
  split at hwindow
  · cases hwindow
  · cases hsize : Text.checkSize config.lineNumberWidth with
    | error fault => rw [hsize] at hwindow; cases hwindow
    | ok _ =>
        rw [hsize] at hwindow
        exact (Except.ok.inj hwindow).symm

/-- A frame is a window on the lines of the buffer. -/
theorem exists_window (hglyph : config.cursorGlyph = .string glyph)
    (h : project config buffer count = .ok frame) :
    ∃ visible, config.cursorVisible count = .ok visible ∧
      window config (markedLines glyph buffer visible) = .ok frame := by
  rw [project, Views.at] at h
  cases hvisible : config.cursorVisible count with
  | error error => rw [hvisible] at h; cases h
  | ok visible =>
      refine ⟨visible, rfl, ?_⟩
      rw [hvisible] at h
      cases visible with
      | false => exact h
      | true =>
          simp only [views, withCursor, hglyph, if_true] at h
          exact h

/-- Without line numbers a frame is the window itself. -/
theorem project_unnumbered (hglyph : config.cursorGlyph = .string glyph) {visible : Bool}
    (hvisible : config.cursorVisible count = .ok visible) :
    project config.unnumbered buffer count
      = .ok ((markedLines glyph buffer visible).drop (buffer.lineTotal - config.lineCount)) := by
  have hplain (lines : Frame) : window config.unnumbered lines
      = .ok (lines.drop (lines.length - config.lineCount)) := window_plain rfl lines
  have hsame : config.unnumbered.cursorVisible count = .ok visible := hvisible
  have hcursor : config.unnumbered.cursorGlyph = .string glyph := hglyph
  rw [← length_markedLines glyph buffer visible, ← hplain, project, Views.at, hsame]
  cases visible with
  | false => rfl
  | true =>
      simp only [views, withCursor, hcursor, if_true]
      rfl

theorem tailOf_drop (glyph buffer : Text) (hlines : 1 ≤ config.lineCount) {visible : Bool}
    (hvisible : config.cursorVisible count = .ok visible) :
    TailOf config glyph buffer count
      ((markedLines glyph buffer visible).drop (buffer.lineTotal - config.lineCount)) := by
  have hpositive : 0 < buffer.lineTotal := Nat.succ_pos _
  have hlength : ((markedLines glyph buffer visible).drop
      (buffer.lineTotal - config.lineCount)).length = min config.lineCount buffer.lineTotal := by
    rw [List.length_drop, length_markedLines]
    omega
  have hcut : buffer.lineTotal - min config.lineCount buffer.lineTotal
      = buffer.lineTotal - config.lineCount := by omega
  obtain ⟨above, hfirst, hjoined⟩ := exists_above glyph buffer visible
    (k := buffer.lineTotal - config.lineCount) (by omega)
  refine ⟨hlength, above, by rwa [hlength, hcut], ?_⟩
  rw [hjoined, Config.marked, hvisible]
  cases visible <;> rfl

end Frame

/-- A buffer shows the last of its lines with the cursor, and line numbers count from its first line on. -/
theorem project_tail {config : Config} {glyph : Text} (hglyph : config.cursorGlyph = .string glyph)
    (hlines : 1 ≤ config.lineCount) (buffer : Text) (count : Int) :
    Projected config glyph buffer count where
  returns := project_isOk_iff hglyph buffer count
  plain frame hframe hnumbers := by
    obtain ⟨visible, hvisible, hwindow⟩ := Frame.exists_window hglyph hframe
    rw [Frame.window_plain hnumbers, Frame.length_markedLines] at hwindow
    obtain rfl := Except.ok.inj hwindow
    exact Frame.tailOf_drop glyph buffer hlines hvisible
  numbered frame hframe hnumbers := by
    obtain ⟨visible, hvisible, hwindow⟩ := Frame.exists_window hglyph hframe
    have htail := Frame.tailOf_drop glyph buffer hlines hvisible
    have hnumbered := Frame.eq_numbered_of_window hnumbers hwindow
    rw [Frame.length_markedLines] at hnumbered
    have hlength := htail.length
    generalize hshown : (Frame.markedLines glyph buffer visible).drop
      (buffer.lineTotal - config.lineCount) = shown at htail hnumbered hlength
    have hfirst : buffer.lineTotal - config.lineCount + 1 = buffer.lineTotal + 1 - shown.length := by
      omega
    rw [hfirst] at hnumbered
    have hfrom : NumberedFrom config.lineNumberWidth (buffer.lineTotal + 1 - shown.length) shown frame :=
      hnumbered ▸ Frame.numberedFrom_numbered _ _ shown
    refine ⟨shown, by rw [Frame.project_unnumbered hglyph hvisible, hshown], htail, hfrom, ?_⟩
    have hsome : 0 < buffer.lineTotal := Nat.succ_pos _
    rw [hfrom.readBack, List.getLast?_range', if_neg (by omega)]
    congr 1
    omega

/-- Two lines with numbers of two digits, and a cursor that does not blink. -/
def twoLines : Config :=
  { (default : Config) with
    fps := .int 30
    lineCount := 2
    cursorGlyph := .string "_"
    lineNumbers := .bool true
    lineNumberWidth := 2 }

theorem project_tail_twoLines :
    1 ≤ twoLines.lineCount ∧ project twoLines "a\nb\nc" 0 = .ok ["02 b", "03 c_"] ∧
      Projected twoLines "_" "a\nb\nc" 0 :=
  ⟨by decide, rfl, project_tail rfl (by decide) "a\nb\nc" 0⟩

/-- Options for which nothing can be shown: an interval of the cursor that is no number of frames, and a
width of line numbers that is no word. -/
theorem project_outOfRange :
    let rare := { twoLines with cursorBlink := 10 ^ 400 }
    let wide := { twoLines with lineNumberWidth := 10 ^ 20 }
    (1 ≤ rare.lineCount ∧ rare.cursorGlyph = .string "_" ∧
        ¬∃ frame, project rare "a" 0 = .ok frame) ∧
      (1 ≤ wide.lineCount ∧ wide.cursorGlyph = .string "_" ∧
        ¬∃ frame, project wide "a" 0 = .ok frame) := by
  have hrare : (project { twoLines with cursorBlink := 10 ^ 400 } "a" 0).toOption = none := by
    decide +kernel
  have hwide : (project { twoLines with lineNumberWidth := 10 ^ 20 } "a" 0).toOption = none := by
    decide +kernel
  refine ⟨⟨by decide, rfl, ?_⟩, by decide, rfl, ?_⟩
  · rintro ⟨frame, hframe⟩
    rw [hframe] at hrare
    cases hrare
  · rintro ⟨frame, hframe⟩
    rw [hframe] at hwide
    cases hwide

end Screencast
