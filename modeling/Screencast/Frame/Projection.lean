import Screencast.Config.Basic
import Screencast.Frame.Basic
import Screencast.Text.Lines
import Screencast.Text.Size

/-!
# From the buffer to the screen

`project` gives the frame of a buffer at a number of frames: the last lines that fit on the screen,
with line numbers if they are asked for, and with the cursor when it is in its visible phase.

The buffer is split once into two views, with and without the cursor, and the number of the frame
only chooses between them.
-/

namespace Screencast

/-- Why a buffer cannot be shown. -/
inductive ProjectionError where
  /-- The phase of the cursor cannot be computed. -/
  | arithmetic (error : ArithmeticError)
  /-- The cursor is no text but a value of this kind. -/
  | glyph (kind : String)
  /-- The width of line numbers is no word. -/
  | numberWidth
  /-- The lines with their numbers cannot be made. -/
  | size (fault : Text.SizeFault)
  deriving DecidableEq, Repr

namespace ProjectionError

def message : ProjectionError → String
  | .arithmetic error => error.message
  | .glyph kind => s!"can only concatenate str (not \"{kind}\") to str"
  | .numberWidth => "Too many decimal digits in format string"
  | .size fault => fault.message

/-- The kind of error named when no message is shown. -/
def label : ProjectionError → String
  | .arithmetic error => error.label
  | .glyph _ => "TypeError"
  | .numberWidth => "ValueError"
  | .size fault => fault.label

end ProjectionError

namespace Config

/-- The interval of the blinking cursor in frames. -/
def blinkFrames (config : Config) : Except ArithmeticError Int := do
  let product ← (Number.int config.cursorBlink).mul config.fps
  (← product.div (.int 1000)).round

/-- Whether the cursor is shown at a number of frames: during the first half of each interval, the
middle included. -/
def cursorVisible (config : Config) (count : Int) : Except ArithmeticError Bool :=
  if !config.cursorGlyph.isSet then .ok false
  else if config.cursorBlink = 0 then .ok true
  else do
    let interval ← config.blinkFrames
    return 2 * (count % max 1 interval) ≤ interval

end Config

namespace Frame

/-- Appends the cursor to the last line. -/
def withCursor (config : Config) (lines : Frame) : Except ProjectionError Frame :=
  match config.cursorGlyph with
  | .string glyph =>
    .ok (lines.dropLast ++ (lines.getLast?.map (· ++ glyph)).toList)
  | value => .error (.glyph value.kindName)

/-- A line number with zeros in front. -/
def numberText (width number : Nat) : List Char :=
  let digits := Nat.toDigits 10 number
  List.replicate (width - digits.length) '0' ++ digits

/-- Lines with their numbers, the first of which is given. -/
def numbered (width number : Nat) : Frame → Frame
  | [] => []
  | line :: rest =>
    (Text.ofChars (numberText width number) ++ " " ++ line) :: numbered width (number + 1) rest

/-- The last lines, as many as the screen has. -/
def window (config : Config) (lines : Frame) : Except ProjectionError Frame :=
  let first := lines.length - config.lineCount
  let visible := lines.drop first
  if !config.lineNumbers.isSet then .ok visible
  else if Text.sizeLimit ≤ config.lineNumberWidth then .error .numberWidth
  else do
    (Text.checkSize config.lineNumberWidth).mapError .size
    return numbered config.lineNumberWidth (first + 1) visible

/-- A buffer on the screen without and with the cursor. -/
structure Views where
  plain : Except ProjectionError Frame
  marked : Except ProjectionError Frame

/-- Both views of a buffer. -/
def views (config : Config) (buffer : Text) : Views :=
  let lines := Text.splitLines buffer
  ⟨window config lines, withCursor config lines >>= window config⟩

/-- The view that is shown at a number of frames. -/
def Views.at (views : Views) (config : Config) (count : Int) : Except ProjectionError Frame :=
  match config.cursorVisible count with
  | .error error => .error (.arithmetic error)
  | .ok visible => if visible then views.marked else views.plain

end Frame

/-- The frame of a buffer at a number of frames. -/
def project (config : Config) (buffer : Text) (count : Int) : Except ProjectionError Frame :=
  (Frame.views config buffer).at config count

end Screencast
