import Mathlib.Data.List.GetD
import Screencast.Proofs.Text.Offsets
import Screencast.Replay.Stage

/-!
# What a span copies

A copy cuts lines out of the lines of the buffer, cuts the first and the last one of them and joins them
again.  That comes to one piece of the buffer, from the place where the span starts to the place where it
ends: `Stage.execute_copy`.

The start line of a span may lie above the screen.  The lines are then those from the first one on, but
the last one is not cut, whatever the end column says: `Session.fromAbove_copy`.
-/

namespace Screencast

namespace Text

variable {α : Type}

theorem place_le (length : Nat) (position : Int) : place length position ≤ length := by
  unfold place
  split
  · omega
  · exact Nat.min_le_right _ _

/-- A slice between positions that are not negative. -/
theorem slice_of_nonneg (xs : List α) {start stop : Int} (hstart : 0 ≤ start) (hstop : 0 ≤ stop) :
    slice start stop xs = (xs.take stop.toNat).drop start.toNat := by
  have htake : xs.take (min stop.toNat xs.length) = xs.take stop.toNat := by
    rw [List.take_eq_take_iff]
    omega
  rw [slice, place_of_nonneg _ hstart, place_of_nonneg _ hstop, htake]
  by_cases hinside : start.toNat ≤ xs.length
  · rw [Nat.min_eq_left hinside]
  · have hlength := List.length_take_le stop.toNat xs
    have hlength' := List.length_take_le' stop.toNat xs
    rw [List.drop_eq_nil_of_le (by omega), List.drop_eq_nil_of_le (by omega)]

end Text

namespace Session

/-! ## Cutting lines -/

theorem cutLast_concat (stop : Int) (lines : List Text) (last : Text) :
    cutLast stop (lines ++ [last]) = lines ++ [last.take (Text.place last.length stop)] := by
  rw [cutLast, List.dropLast_concat, List.getLast?_concat]
  rfl

/-- Without the part of the first line that is cut off, the text of the lines begins later. -/
theorem joinLines_cutFirst (start : Int) (first : Text) (rest : List Text) :
    Text.joinLines (cutFirst start (first :: rest))
      = (Text.joinLines (first :: rest)).drop (Text.place first.length start) := by
  rw [cutFirst, Text.since]
  cases rest with
  | nil => rfl
  | cons next rest =>
      have hrest : next :: rest ≠ [] := List.cons_ne_nil next rest
      rw [Text.joinLines_cons _ hrest, Text.joinLines_cons _ hrest,
        List.drop_append_of_le_length (Text.place_le _ _)]

/-! ## The lines of a span -/

variable (session : Session) (span : Span)

/-- The lines that a span goes through. -/
def spanned : List Text := (session.lines.take span.endLine.toNat).drop (span.startLine - 1).toNat

theorem selection_eq : session.selection span = cutFirst span.startColumn
    (if span.endLine - span.startLine = ((session.spanned span).length : Int) - 1 then
      cutLast span.endColumn (session.spanned span)
    else session.spanned span) := by
  have hslice : Text.slice (max 0 (span.startLine - 1)) (max 0 span.endLine) session.lines
      = session.spanned span := by
    have hstart : (max 0 (span.startLine - 1)).toNat = (span.startLine - 1).toNat := by omega
    have hstop : (max 0 span.endLine).toNat = span.endLine.toNat := by omega
    rw [Text.slice_of_nonneg _ (Int.le_max_left ..) (Int.le_max_left ..), hstart, hstop, spanned]
  simp only [selection, hslice]

/-- A span that goes through no line selects nothing. -/
theorem clipboard_of_no_line
    (h : min span.endLine.toNat session.lines.length ≤ (span.startLine - 1).toNat) :
    (session.copy span).clipboard = [] := by
  have hspanned : session.spanned span = [] := by
    rw [spanned, List.drop_eq_nil_iff, List.length_take]
    exact h
  rw [copy, selection_eq, hspanned, cutLast]
  split <;> rfl

/-- How much of its last line a span selects, which is a line of the buffer. -/
def lastColumn (k : Nat) (last : Text) : Nat :=
  if span.endLine - span.startLine = (k : Int) - (span.startLine - 1).toNat then
    Text.place last.length span.endColumn
  else last.length

theorem lastColumn_le (k : Nat) (last : Text) : lastColumn span k last ≤ last.length := by
  unfold lastColumn
  split
  · exact Text.place_le _ _
  · exact Nat.le_refl _

variable {session span} {k : Nat} {first last : Text}

/-- The last line that a span goes through. -/
structure EndsAt (session : Session) (span : Span) (k : Nat) (last : Text) : Prop where
  line : session.lines[k]? = some last
  number : k + 1 = min span.endLine.toNat session.lines.length
  start : (span.startLine - 1).toNat ≤ k

theorem exists_endsAt
    (h : (span.startLine - 1).toNat < min span.endLine.toNat session.lines.length) :
    ∃ k last, EndsAt session span k last := by
  have hk : min span.endLine.toNat session.lines.length - 1 < session.lines.length := by omega
  exact ⟨_, _, List.getElem?_eq_getElem hk, by omega, by omega⟩

namespace EndsAt

variable (h : EndsAt session span k last)

include h

theorem start_le_length : (span.startLine - 1).toNat ≤ (session.lines.take k).length := by
  have hk : k < session.lines.length := (List.getElem?_eq_some_iff.mp h.line).1
  have hstart := h.start
  rw [List.length_take]
  omega

theorem spanned_eq :
    session.spanned span = (session.lines.take k).drop (span.startLine - 1).toNat ++ [last] := by
  have htake : session.lines.take span.endLine.toNat = session.lines.take (k + 1) := by
    have hnumber := h.number
    rw [List.take_eq_take_iff]
    omega
  rw [spanned, htake, List.take_add_one, h.line, Option.toList_some,
    List.drop_append_of_le_length h.start_le_length]

/-- The lines up to the last one, of which only a part is selected, are cut at the front. -/
theorem selection_eq :
    session.selection span = cutFirst span.startColumn
      ((session.lines.take k ++ [last.take (lastColumn span k last)]).drop
        (span.startLine - 1).toNat) := by
  have hlength : ((session.spanned span).length : Int) - 1 = k - (span.startLine - 1).toNat := by
    have hk : k < session.lines.length := (List.getElem?_eq_some_iff.mp h.line).1
    have hstart := h.start
    rw [h.spanned_eq, List.length_append, List.length_drop, List.length_take, List.length_singleton]
    omega
  rw [Session.selection_eq, hlength, h.spanned_eq, List.drop_append_of_le_length h.start_le_length,
    lastColumn]
  split
  · rw [cutLast_concat]
  · rw [List.take_length]

/-- What a span copies is one piece of the buffer. -/
theorem exists_clipboard_eq :
    ∃ first, (session.lines.take k ++ [last.take (lastColumn span k last)])[(span.startLine - 1).toNat]?
        = some first ∧
      (session.copy span).clipboard
        = (session.buffer.take (Text.lineStart session.lines k + lastColumn span k last)).drop
            (Text.lineStart session.lines (span.startLine - 1).toNat
              + Text.place first.length span.startColumn) := by
  have hplace : (span.startLine - 1).toNat
      < (session.lines.take k ++ [last.take (lastColumn span k last)]).length := by
    have hstart := h.start_le_length
    rw [List.length_append, List.length_singleton]
    omega
  have hbuffer : Text.joinLines session.lines = session.buffer :=
    Text.joinLines_splitLines session.buffer
  have hstarts : Text.lineStart
      (session.lines.take k ++ [last.take (lastColumn span k last)]) (span.startLine - 1).toNat
        = Text.lineStart session.lines (span.startLine - 1).toNat := by
    apply Text.lineStart_congr
    rw [List.take_append_of_le_length h.start_le_length, List.take_take, Nat.min_eq_left h.start]
  refine ⟨_, List.getElem?_eq_getElem hplace, ?_⟩
  rw [copy, h.selection_eq, List.drop_eq_getElem_cons hplace, joinLines_cutFirst,
    ← List.drop_eq_getElem_cons hplace, Text.joinLines_drop hplace, List.drop_drop, hstarts,
    Text.joinLines_take_concat h.line (lastColumn_le span k last), hbuffer]

end EndsAt

/-! ## Places in the buffer -/

/-- The place of a column of a line, the lines counted from one.  A column that the line does not have
stands for its end. -/
def placeOf (session : Session) (line column : Int) : Nat :=
  Text.lineStart session.lines (line - 1).toNat
    + min column.toNat (session.lines.getD (line - 1).toNat []).length

/-- The place where a span ends: at its end column, if its last line is in the buffer. -/
def endOf (session : Session) (span : Span) : Nat :=
  if span.endLine ≤ session.lines.length then session.placeOf span.endLine span.endColumn
  else session.buffer.length

theorem EndsAt.clipboard_of_nonneg (h : EndsAt session span k last)
    (hcolumn : 0 ≤ span.startColumn) :
    (session.copy span).clipboard
      = (session.buffer.take (Text.lineStart session.lines k + lastColumn span k last)).drop
          (session.placeOf span.startLine span.startColumn) := by
  obtain ⟨first, hfirst, hclipboard⟩ := h.exists_clipboard_eq
  have hk : k < session.lines.length := (List.getElem?_eq_some_iff.mp h.line).1
  rw [hclipboard, placeOf, Text.place_of_nonneg _ hcolumn]
  by_cases hone : (span.startLine - 1).toNat = k
  · -- the first line is the last one, which is cut at its end already
    have hlength : (session.lines.take k).length = k := List.length_take_of_le (Nat.le_of_lt hk)
    rw [hone, List.getElem?_append_right (Nat.le_of_eq hlength), hlength, Nat.sub_self] at hfirst
    have hsome : last.take (lastColumn span k last) = first := Option.some.inj hfirst
    have hle := lastColumn_le span k last
    have hcut : first.length = lastColumn span k last := by
      rw [← hsome, List.length_take, Nat.min_eq_left hle]
    rw [hone, hcut, List.getD_eq_getElem?_getD, h.line, Option.getD_some]
    by_cases hinside : span.startColumn.toNat ≤ lastColumn span k last
    · rw [Nat.min_eq_left hinside, Nat.min_eq_left (Nat.le_trans hinside hle)]
    · have htake := List.length_take_le (Text.lineStart session.lines k + lastColumn span k last)
        session.buffer
      rw [List.drop_eq_nil_of_le (by omega), List.drop_eq_nil_of_le (by omega)]
  · have hlt : (span.startLine - 1).toNat < (session.lines.take k).length := by
      have hstart := h.start
      rw [List.length_take]
      omega
    have hline : session.lines[(span.startLine - 1).toNat]? = some first := by
      rw [List.getElem?_append_left hlt, List.getElem?_take] at hfirst
      have hstart := h.start
      rwa [if_pos (by omega)] at hfirst
    rw [List.getD_eq_getElem?_getD, hline, Option.getD_some]

/-! ## Spans of the screen -/

/-- What a span copies. -/
structure Copies (session : Session) (span : Span) (clipboard : Text) : Prop where
  /-- Whatever the lines and columns are, it is one piece of the buffer. -/
  piece : clipboard <:+: session.buffer
  /-- It goes from the place where the span starts to the place where it ends. -/
  between : 1 ≤ span.startLine → 0 ≤ span.startColumn → 0 ≤ span.endColumn →
    clipboard = if session.lines.length < span.startLine ∨ span.endLine < span.startLine ∨
        session.endOf span < session.placeOf span.startLine span.startColumn then []
      else (session.buffer.take (session.endOf span)).drop
        (session.placeOf span.startLine span.startColumn)

theorem isInfix_copy (session : Session) (span : Span) :
    (session.copy span).clipboard <:+: session.buffer := by
  by_cases hline : (span.startLine - 1).toNat < min span.endLine.toNat session.lines.length
  · obtain ⟨k, last, h⟩ := exists_endsAt hline
    obtain ⟨first, -, hclipboard⟩ := h.exists_clipboard_eq
    rw [hclipboard]
    exact (List.drop_suffix _ _).isInfix.trans (List.take_prefix _ _).isInfix
  · rw [clipboard_of_no_line session span (by omega)]
    exact List.nil_infix

/-- A span that starts on the screen ends at the end of the buffer, or in the line that it names. -/
theorem EndsAt.take_eq (h : EndsAt session span k last) (hline : 1 ≤ span.startLine)
    (hcolumn : 0 ≤ span.endColumn) :
    session.buffer.take (Text.lineStart session.lines k + lastColumn span k last)
      = session.buffer.take (session.endOf span) := by
  have hnumber := h.number
  have hstart := h.start
  by_cases hend : span.endLine ≤ session.lines.length
  · have hcut : span.endLine - span.startLine = (k : Int) - (span.startLine - 1).toNat := by omega
    have hk : (span.endLine - 1).toNat = k := by omega
    rw [endOf, if_pos hend, placeOf, hk, lastColumn, if_pos hcut, Text.place_of_nonneg _ hcolumn,
      List.getD_eq_getElem?_getD, h.line, Option.getD_some]
  · have hcut : ¬span.endLine - span.startLine = (k : Int) - (span.startLine - 1).toNat := by omega
    have hlines : session.lines.take k ++ [last] = session.lines := by
      have hk : session.lines.length = k + 1 := by omega
      have htake : session.lines.take (k + 1) = session.lines := List.take_of_length_le (by omega)
      rw [List.take_add_one, h.line, Option.toList_some] at htake
      exact htake
    have hjoined := Text.joinLines_take_concat h.line (Nat.le_refl last.length)
    have hbuffer : Text.joinLines session.lines = session.buffer :=
      Text.joinLines_splitLines session.buffer
    rw [List.take_length, hlines, hbuffer] at hjoined
    rw [endOf, if_neg hend, lastColumn, if_neg hcut, List.take_length, ← hjoined]

theorem copies_copy (session : Session) (span : Span) :
    session.Copies span (session.copy span).clipboard where
  piece := isInfix_copy session span
  between := by
    intro hline hstart hend
    by_cases hspanned : (span.startLine - 1).toNat < min span.endLine.toNat session.lines.length
    · obtain ⟨k, last, h⟩ := exists_endsAt hspanned
      rw [h.clipboard_of_nonneg hstart, h.take_eq hline hend]
      split
      · next houtside =>
        have hlength := List.length_take_le (session.endOf span) session.buffer
        apply List.drop_eq_nil_of_le
        omega
      · rfl
    · rw [clipboard_of_no_line session span (by omega), if_pos (by omega)]

end Session

/-- A copy puts one piece of the buffer on the clipboard, the one between the two ends of the span.  It
changes nothing else, and records nothing. -/
theorem Stage.execute_copy (setting : Setting) (stage : Stage) (span : Span) :
    ∃ clipboard, stage.execute setting (.copy span)
        = ({ stage with session := { stage.session with clipboard } }, none) ∧
      stage.session.Copies span clipboard :=
  ⟨_, rfl, Session.copies_copy stage.session span⟩

namespace Session

/-! ## Spans that start above the screen -/

variable {session : Session} {span : Span} {k : Nat} {last : Text}

/-- A span whose start line is above the screen goes through the lines from the first one on. -/
theorem EndsAt.fromTop (h : EndsAt session span k last) (column : Int) :
    EndsAt session { span with startLine := 1, endColumn := column } k last :=
  ⟨h.line, h.number, Nat.zero_le k⟩

/-- Its last line is never cut: there are more lines from the start line to the end line than on the
screen. -/
theorem EndsAt.lastColumn_of_above (h : EndsAt session span k last) (hline : span.startLine < 1) :
    lastColumn span k last = last.length := by
  have hnumber := h.number
  have huncut : ¬span.endLine - span.startLine = (k : Int) - (span.startLine - 1).toNat := by omega
  rw [lastColumn, if_neg huncut]

theorem EndsAt.lastColumn_fromTop (h : EndsAt session span k last) {column : Int}
    (hcolumn : 0 ≤ column) :
    lastColumn { span with startLine := 1, endColumn := column } k last
      = if span.endLine ≤ session.lines.length then min column.toNat last.length
        else last.length := by
  have hnumber := h.number
  by_cases hend : span.endLine ≤ session.lines.length
  · have hcut : span.endLine - 1 = (k : Int) - ((1 : Int) - 1).toNat := by omega
    rw [lastColumn, if_pos hcut, if_pos hend, Text.place_of_nonneg _ hcolumn]
  · have huncut : ¬span.endLine - 1 = (k : Int) - ((1 : Int) - 1).toNat := by omega
    rw [lastColumn, if_neg huncut, if_neg hend]

theorem placeOf_of_above {line : Int} (hline : line < 1) (column : Int) :
    session.placeOf line column = session.placeOf 1 column := by
  have hfirst : (line - 1).toNat = ((1 : Int) - 1).toNat := by omega
  rw [placeOf, placeOf, hfirst]

theorem clipboard_of_above_of_no_line (hline : span.startLine < 1)
    (h : ¬(span.startLine - 1).toNat < min span.endLine.toNat session.lines.length) (column : Int) :
    (session.copy span).clipboard = [] ∧
      (session.copy { span with startLine := 1, endColumn := column }).clipboard = [] := by
  have htop : min span.endLine.toNat session.lines.length ≤ ((1 : Int) - 1).toNat := by omega
  exact ⟨clipboard_of_no_line session span (by omega), clipboard_of_no_line session _ htop⟩

/-- The text of a line, the lines counted from one. -/
def lineText (session : Session) (line : Int) : Text := session.lines.getD (line - 1).toNat []

theorem EndsAt.lineText_eq (h : EndsAt session span k last)
    (hend : span.endLine ≤ session.lines.length) : session.lineText span.endLine = last := by
  have hnumber := h.number
  have hk : (span.endLine - 1).toNat = k := by omega
  rw [lineText, hk, List.getD_eq_getElem?_getD, h.line, Option.getD_some]

/-- Pieces of the buffer that begin in the first line are different if they end at different places of a
line, unless that is the first one and they begin behind both places. -/
theorem eq_of_drop_take_eq (hline : session.lines[k]? = some last) {column start : Nat}
    (hcolumn : column < last.length) (hstart : start ≤ (session.lineText 1).length)
    (h : (session.buffer.take (Text.lineStart session.lines k + last.length)).drop start
      = (session.buffer.take (Text.lineStart session.lines k + column)).drop start) :
    k = 0 ∧ last.length ≤ start := by
  have hbuffer : Text.joinLines session.lines = session.buffer :=
    Text.joinLines_splitLines session.buffer
  have hroom := Text.lineStart_add_length_le hline
  have hlength := congrArg List.length h
  rw [hbuffer] at hroom
  rw [List.length_drop, List.length_drop, List.length_take, List.length_take] at hlength
  have hbehind : Text.lineStart session.lines k + last.length ≤ start := by omega
  cases k with
  | zero =>
      rw [Text.lineStart_zero, Nat.zero_add] at hbehind
      exact ⟨rfl, hbehind⟩
  | succ k =>
      -- the first line ends before any other one begins
      exfalso
      rcases hlines : session.lines with _ | ⟨first, rest⟩
      · rw [hlines] at hline
        cases hline
      · have hfirst : session.lineText 1 = first := by
          rw [lineText, hlines]
          rfl
        rw [hlines, Text.lineStart_succ] at hbehind
        rw [hfirst] at hstart
        omega

/-- From a place in the first line on, it does not matter whether the last line is cut if there is nothing
to cut off, or if nothing is left of it anyway. -/
theorem EndsAt.drop_take_eq_iff (h : EndsAt session span k last) (hstart : 0 ≤ span.startColumn)
    (hend : 0 ≤ span.endColumn) (hinside : span.endLine ≤ session.lines.length) :
    (session.buffer.take (Text.lineStart session.lines k + last.length)).drop
        (session.placeOf 1 span.startColumn)
      = (session.buffer.take (Text.lineStart session.lines k + min span.endColumn.toNat last.length)).drop
          (session.placeOf 1 span.startColumn) ↔
      (last.length : Int) ≤ span.endColumn ∨
        span.endLine = 1 ∧ ((session.lineText 1).length : Int) ≤ span.startColumn := by
  have hnumber := h.number
  have hplace : session.placeOf 1 span.startColumn
      = min span.startColumn.toNat (session.lineText 1).length := by
    rw [placeOf, Int.sub_self, Int.toNat_zero, Text.lineStart_zero, Nat.zero_add]
    rfl
  rw [hplace]
  constructor
  · intro hsame
    by_cases hcut : span.endColumn.toNat < last.length
    · rw [Nat.min_eq_left (Nat.le_of_lt hcut)] at hsame
      obtain ⟨rfl, hbehind⟩ := eq_of_drop_take_eq h.line hcut (Nat.min_le_right _ _) hsame
      have hone : span.endLine = 1 := by omega
      have htext := h.lineText_eq hinside
      rw [hone] at htext
      rw [htext] at hbehind ⊢
      exact .inr ⟨hone, by omega⟩
    · exact .inl (by omega)
  · rintro (hlong | ⟨hone, hbehind⟩)
    · have hcolumn : last.length ≤ span.endColumn.toNat := by omega
      rw [Nat.min_eq_right hcolumn]
    · have hzero : k = 0 := by omega
      have htext := h.lineText_eq hinside
      rw [hone] at htext
      rw [htext] at hbehind ⊢
      have hcolumn : last.length ≤ span.startColumn.toNat := by omega
      rw [hzero, Text.lineStart_zero, Nat.zero_add, Nat.zero_add, Nat.min_eq_right hcolumn]
      have hwhole := List.length_take_le last.length session.buffer
      have hcut := List.length_take_le (min span.endColumn.toNat last.length) session.buffer
      rw [List.drop_eq_nil_of_le hwhole, List.drop_eq_nil_of_le (by omega)]

/-- What a span copies whose start line is above the screen. -/
structure CopiesFromAbove (session : Session) (span : Span) : Prop where
  /-- It copies what the span from the first line on copies if it goes to the end of its last line. -/
  whole : (session.copy span).clipboard = (session.copy { span with
    startLine := 1, endColumn := (session.lineText span.endLine).length }).clipboard
  /-- So it ends at its end column only if that is the end of the line, or nothing is selected in any
  case, or the last line is not on the screen. -/
  agrees : (session.copy span).clipboard = (session.copy { span with startLine := 1 }).clipboard ↔
    span.endLine < 1 ∨ session.lines.length < span.endLine ∨
      (session.lineText span.endLine).length ≤ span.endColumn ∨
      span.endLine = 1 ∧ (session.lineText 1).length ≤ span.startColumn

/-- The end column of a span whose start line is above the screen is not honoured. -/
theorem fromAbove_copy (session : Session) {span : Span} (hline : span.startLine < 1)
    (hstart : 0 ≤ span.startColumn) (hend : 0 ≤ span.endColumn) :
    session.CopiesFromAbove span := by
  by_cases hspanned : (span.startLine - 1).toNat < min span.endLine.toNat session.lines.length
  · obtain ⟨k, last, h⟩ := exists_endsAt hspanned
    have hnumber := h.number
    -- both pieces begin at the same place of the first line
    have habove := h.clipboard_of_nonneg hstart
    rw [h.lastColumn_of_above hline, placeOf_of_above hline] at habove
    constructor
    case whole =>
      have hcolumn : (0 : Int) ≤ (session.lineText span.endLine).length := Int.natCast_nonneg _
      rw [habove, (h.fromTop _).clipboard_of_nonneg hstart, h.lastColumn_fromTop hcolumn]
      split
      · next hinside => rw [h.lineText_eq hinside, Int.toNat_natCast, Nat.min_self]
      · rfl
    case agrees =>
      rw [habove, (h.fromTop span.endColumn).clipboard_of_nonneg hstart, h.lastColumn_fromTop hend]
      by_cases hinside : span.endLine ≤ session.lines.length
      · rw [if_pos hinside, h.lineText_eq hinside, h.drop_take_eq_iff hstart hend hinside]
        have hscreen : ¬span.endLine < 1 := by omega
        have hends : ¬(session.lines.length : Int) < span.endLine := by omega
        rw [or_iff_right hscreen, or_iff_right hends]
      · rw [if_neg hinside]
        exact iff_of_true rfl (.inr (.inl (by omega)))
  · constructor
    case whole =>
      obtain ⟨hnone, hnone'⟩ := clipboard_of_above_of_no_line hline hspanned
        (session.lineText span.endLine).length
      rw [hnone, hnone']
    case agrees =>
      obtain ⟨hnone, hnone'⟩ := clipboard_of_above_of_no_line hline hspanned span.endColumn
      have hpositive : 0 < session.lines.length :=
        List.length_pos_iff.mpr (Text.splitAt_ne_nil _ session.buffer)
      rw [hnone, hnone']
      exact iff_of_true rfl (.inl (by omega))

/-- A session with one word on the screen. -/
def oneWord : Session := { Session.empty with buffer := "word" }

theorem fromAbove_copy_oneWord :
    (⟨0, 0, 1, 1⟩ : Span).startLine < 1 ∧ oneWord.CopiesFromAbove ⟨0, 0, 1, 1⟩ :=
  ⟨by decide, fromAbove_copy oneWord (by decide) (by decide) (by decide)⟩

/-- From the line above the screen the whole word is copied, from the first line its first letter. -/
theorem copy_oneWord : (oneWord.copy ⟨0, 0, 1, 1⟩).clipboard = "word" ∧
    (oneWord.copy ⟨1, 0, 1, 1⟩).clipboard = "w" := by
  decide

end Session

end Screencast
