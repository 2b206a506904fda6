import Screencast.Step.Basic
import Screencast.Text.Blank
import Screencast.Text.Lines
import Screencast.Text.Slice

/-!
# The state of the recorded terminal

A `Session` is the text on the terminal, what was typed since the last command, the clipboard, and
the commands started so far.  Its operations are those of a user at the keyboard and of a command
that writes.
-/

namespace Screencast

/-- The text state of a terminal. -/
structure Session where
  /-- Everything typed and written, with its line feeds. -/
  buffer : Text
  /-- What was typed since the last command. -/
  pending : Text
  clipboard : Text
  /-- The commands started so far, in order. -/
  commands : List Text
  deriving DecidableEq, Repr, Inhabited

namespace Session

/-- The session before anything happens. -/
def empty : Session := ⟨[], [], [], []⟩

def lines (session : Session) : List Text := Text.splitLines session.buffer

/-- Appends text that the user types. -/
def type (text : Text) (session : Session) : Session :=
  { session with buffer := session.buffer ++ text, pending := session.pending ++ text }

/-- Appends text that a command writes. -/
def emit (text : Text) (session : Session) : Session :=
  { session with buffer := session.buffer ++ text }

/-- How many code points `delete` takes away; a negative count stays what it is. -/
def deletable (count : Int) (session : Session) : Int := min count session.buffer.length

/-- Deletes code points at the end of the buffer, and of the pending text as far as it goes. -/
def delete (count : Int) (session : Session) : Session :=
  let count := session.deletable count
  if count = 0 then session
  else
    { session with
      buffer := Text.upTo (-count) session.buffer
      pending := Text.upTo (max 0 (session.pending.length - count)) session.pending }

/-- Ends the line; what was typed, without the blanks around it, is the command to run. -/
def submit (session : Session) : Text × Session :=
  (Text.trimWhile (CodePoint.satisfies Text.isBlank) session.pending,
    { session with buffer := session.buffer ++ "\n", pending := [] })

/-- Empties the terminal. -/
def clear (session : Session) : Session := { session with buffer := [], pending := [] }

/-- Notes that a command is started. -/
def start (command : Text) (session : Session) : Session :=
  { session with commands := session.commands ++ [command] }

/-- Cuts the last line of a selection. -/
def cutLast (stop : Int) (lines : List Text) : List Text :=
  lines.dropLast ++ (lines.getLast?.map (Text.upTo stop)).toList

/-- Cuts the first line of a selection. -/
def cutFirst (start : Int) : List Text → List Text
  | [] => []
  | line :: rest => Text.since start line :: rest

/-- The lines of a span.  Its end column counts only when its last line is on the screen. -/
def selection (span : Span) (session : Session) : List Text :=
  let lines := Text.slice (max 0 (span.startLine - 1)) (max 0 span.endLine) session.lines
  let cut := if span.endLine - span.startLine = (lines.length : Int) - 1 then
      cutLast span.endColumn lines
    else lines
  cutFirst span.startColumn cut

/-- Copies a span to the clipboard. -/
def copy (span : Span) (session : Session) : Session :=
  { session with clipboard := Text.joinLines (session.selection span) }

end Session

end Screencast
