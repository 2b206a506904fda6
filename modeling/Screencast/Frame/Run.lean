import Screencast.Frame.Basic
import Screencast.Text.Blank

/-!
# Runs of frames

Blanks at the end of a line and empty lines at the bottom cannot be seen.  Consecutive frames that
look the same form a run, and a run is drawn once.
-/

namespace Screencast

/-- A frame and for how many ticks it stays on the screen. -/
structure Run where
  frame : Frame
  length : Nat
  deriving DecidableEq, Repr, Inhabited

namespace Frame

/-- What can be seen of a frame. -/
def visible (frame : Frame) : Frame :=
  let lines := frame.map (Text.dropRightWhile (· = CodePoint.char ' '))
  (lines.reverse.dropWhile List.isEmpty).reverse

/-- The runs of frames that go on from a run of the given length. -/
def runsFrom (first : Frame) (look : Frame) (length : Nat) : List Frame → List Run
  | [] => [⟨first, length⟩]
  | frame :: rest =>
    let next := frame.visible
    if next = look then runsFrom first look (length + 1) rest
    else ⟨first, length⟩ :: runsFrom frame next 1 rest

/-- The runs of a sequence of frames.  Each is shown by its first frame. -/
def runs : List Frame → List Run
  | [] => []
  | frame :: rest => runsFrom frame frame.visible 1 rest

end Frame

end Screencast
