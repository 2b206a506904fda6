import Screencast.Json.Display
import Screencast.Text.Lines
import Screencast.Text.Size
import Screencast.Text.Width

/-!
# The live preview

The preview shows the screen in a box on a terminal.  Each time it is drawn anew from the upper left
corner, which is cleared before.
-/

namespace Screencast

/-- The box around the screen: its inner width and the title on its upper border. -/
structure Box where
  columns : Int
  title : Json
  deriving Inhabited, Repr

namespace Box

/-- Moves to the upper left corner and clears the terminal. -/
def home : Text := "\x1b[H\x1b[2J"

/-- The cells of a line; a line with control characters counts its code points. -/
def width (line : Text) : Nat := (Text.displayWidth line).getD line.length

/-- A line filled up to the width of the box. -/
def pad (box : Box) (line : Text) : Text :=
  line ++ List.replicate (box.columns - width line).toNat (CodePoint.char ' ')

/-- The title with blanks around it. -/
def titleText (box : Box) : Text :=
  if box.title.isSet then " " ++ box.title.display ++ " " else []

/-- A part of a border with this many cells. -/
def edge (cells : Int) : Text := List.replicate cells.toNat '─'

def top (box : Box) : Text :=
  "┌" ++ box.titleText ++ edge (box.columns - box.titleText.length) ++ "┐"

def bottom (box : Box) : Text := "└" ++ edge box.columns ++ "┘"

def row (box : Box) (line : Text) : Text := "│" ++ box.pad line ++ "│"

/-- The rows of the box around a text. -/
def rows (box : Box) (content : Text) : List Text :=
  box.top :: (Text.splitLines content).map box.row ++ [box.bottom]

/-- Checks that the borders can be drawn, the upper one first. -/
def check (box : Box) : Except Text.SizeFault Unit := do
  Text.checkSize (box.columns - box.titleText.length).toNat
  Text.checkSize box.columns.toNat

/-- What is to be written to the terminal to show a text. -/
def draw (box : Box) (content : Text) : Text :=
  home ++ (box.rows content).flatMap fun row => (row ++ "\r\n" : Text)

end Box

end Screencast
