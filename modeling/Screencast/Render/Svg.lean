import Screencast.Frame.Run
import Screencast.Number.Decimal
import Screencast.Render.Basic
import Screencast.Text.Width
import Screencast.Xml

/-!
# Animated documents

Each run of frames is one hidden text of the document, which two animations show and hide again:
the first begins when the text before it is hidden, the second after the duration of the run.  The
first text also follows the last one, so that the whole repeats for ever.
-/

namespace Screencast.Svg

/-- The namespace of the elements. -/
def nameSpace : String := "http://www.w3.org/2000/svg"

/-- How long showing and hiding takes. -/
def instant : String := "0.000001s"

def numeral (n : Nat) : List Char := Nat.toDigits 10 n

/-- Milliseconds in seconds. -/
def secondsText (duration : Binary64) : List Char :=
  fixedText 6 (duration.div (.ofInt 1000)) ++ ['s']

/-- The animation that shows the text with this number. -/
def enterId (number : Nat) : List Char := "frame".toList ++ numeral number ++ "enter".toList

/-- The animation that hides it. -/
def leaveId (number : Nat) : List Char := "frame".toList ++ numeral number ++ "leave".toList

/-- When the text with this number is shown, of so many texts. -/
def enterBegin (number count : Nat) : List Char :=
  if number = 1 then "0s; ".toList ++ leaveId count ++ ".end".toList
  else leaveId (number - 1) ++ ".end".toList

/-- When it is hidden. -/
def leaveBegin (config : Config) (number length : Nat) : List Char :=
  enterId number ++ ".end+".toList ++
    secondsText ((Binary64.ofInt length).mul config.frameDuration)

/-- An animation of the opacity of the text around it. -/
def animate (id start stop begins : List Char) : Xml :=
  .empty "animate"
    [("id", id), ("attributeName", "opacity".toList), ("from", start), ("to", stop),
     ("begin", begins), ("dur", instant.toList), ("fill", "freeze".toList)]

/-- The element of a line; all lines but the first stand below the one before. -/
def lineElement (config : Config) (isFirst : Bool) (line : Text) : Xml :=
  let width := (Text.displayWidth line).getD 0
  .element "tspan"
    ([("x", numeral config.paddingX), ("dy", numeral (if isFirst then 0 else config.lineHeight))] ++
      if width = 0 then [] else [("textLength", numeral (width * config.cellWidth))])
    [.text line.chars]

/-- The elements of the lines of a frame. -/
def lineElements (config : Config) : Frame → List Xml
  | [] => []
  | line :: rest => lineElement config true line :: rest.map (lineElement config false)

/-- The text of a run, with its number among so many. -/
def textElement (config : Config) (number count : Nat) (run : Run) : Xml :=
  .element "text"
    [("class", "frame".toList), ("x", numeral config.paddingX), ("y", numeral config.paddingY),
     ("opacity", ['0']), ("xml:space", "preserve".toList)]
    (lineElements config run.frame ++
      [animate (enterId number) ['0'] ['1'] (enterBegin number count),
       animate (leaveId number) ['1'] ['0'] (leaveBegin config number run.length)])

/-- The texts of runs, the first of which has the given number. -/
def textElements (config : Config) (count number : Nat) : List Run → List Xml
  | [] => []
  | run :: rest =>
    textElement config number count run :: textElements config count (number + 1) rest

/-- How the texts look. -/
def style (config : Config) : Text :=
  "\n            .frame \x7b\n                fill: " ++ config.foreground.display ++
  ";\n                font-family: " ++ config.fontFamily.display ++
  ";\n                font-size: " ++ Text.ofChars (numeral config.fontSize) ++
  ("px;\n                dominant-baseline: text-before-edge;\n                " ++
    "text-anchor: start;\n                white-space: pre;\n            \x7d\n        " : String)

/-- The rectangle behind the texts. -/
def background (config : Config) (color : List Char) : Xml :=
  .empty "rect"
    [("width", numeral config.width), ("height", numeral config.height), ("fill", color)]

/-- The whole document, given the style and the color behind the texts. -/
def root (config : Config) (style color : List Char) (runs : List Run) : Xml :=
  .element "svg"
    [("xmlns", nameSpace.toList),
     ("viewBox", "0 0 ".toList ++ numeral config.width ++ ' ' :: numeral config.height),
     ("width", numeral config.width), ("height", numeral config.height)]
    (.element "style" [] [.raw style] :: background config color ::
      textElements config runs.length 1 runs)

/-- The characters of a text that a document can hold. -/
def contentOf (text : Text) : Except RenderFailure (List Char) := do
  let cs ← text.encode.mapError .encoding
  if cs.all Xml.allows then return cs else .error .character

/-- Numbers in documents are smaller. -/
def numberLimit : Nat := Text.longNumbers

/-- Whether the length of a line can be written. -/
def allowsLength (config : Config) (line : Text) : Bool :=
  (Text.displayWidth line).getD 0 * config.cellWidth < numberLimit

/-- Checks a line for what a document cannot hold. -/
def checkLine (config : Config) (line : Text) : Except RenderFailure Unit :=
  if !allowsLength config line then .error .longNumber
  else (contentOf line).map fun _ => ()

/-- Checks the place and the lines of a run. -/
def checkRun (config : Config) (run : Run) : Except RenderFailure Unit :=
  if numberLimit ≤ config.paddingX then .error .longNumber
  else run.frame.forM (checkLine config)

/-- The document that animates frames.  What cannot stand in a document is found in the order in
which the document is built: the numbers of the size and the style, the style, the background, the
runs. -/
def documentOf (config : Config) (frames : List Frame) : Except RenderFailure Xml :=
  let runs := Frame.runs frames
  if numberLimit ≤ config.width ∨ numberLimit ≤ config.height ∨ numberLimit ≤ config.fontSize then
    .error .longNumber
  else do
    let style ← contentOf (style config)
    match config.background with
    | .string color =>
      let color ← contentOf color
      runs.forM (checkRun config)
      return root config style color runs
    | value => .error (.attribute value.kindName)

/-- Writes the document that animates frames to a path. -/
def render (config : Config) (path : List Char) (frames : List Frame) (shop : Workshop) :
    Rendering :=
  match documentOf config frames with
  | .error failure => (shop, .error failure)
  | .ok document =>
    match shop.save path (.text document.document) with
    | (shop, .error failure) => (shop, .error failure)
    | (shop, .ok ()) => (shop, .ok path)

end Screencast.Svg
