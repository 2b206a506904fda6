import Screencast.Cast.Recording
import Screencast.Render.Basic

/-!
# Writing a terminal recording

The frames are written as a terminal recording, and if a command for it is configured an external
program makes a picture of the recording.  The words of the command are found first and the paths
are put into them afterwards, so that a path is never taken for more than one word.
-/

namespace Screencast.Cast

/-- The path of the picture made of a recording. -/
def picturePath (recording : List Char) : List Char :=
  Path.setExtension recording Renderer.gif.extension.toList

/-- The values for the fields of the command. -/
def commandValues (recording : List Char) : List (Text × Text) :=
  [("input", .ofChars recording), ("output", .ofChars (picturePath recording))]

/-- The arguments that a command has for a recording. -/
def arguments (command : Text) (recording : List Char) : Except RenderFailure (List Text) := do
  let words ← (Shell.words command).mapError .words
  words.mapM fun word => (Template.fill (commandValues recording) word).mapError .template

/-- Makes a picture of a recording. -/
def rasterize (tools : Tools) (command : Json) (recording : List Char) (shop : Workshop) :
    Rendering :=
  match command with
  | .string command =>
    match arguments command recording with
    | .error failure => (shop, .error failure)
    | .ok arguments =>
      let line := Text.joinWith " " arguments
      let shop := shop.tell .info ("Rasterizing recording with \"" ++ line ++ "\"")
      let shop := { shop with runs := shop.runs ++ [arguments] }
      match tools.rasterizer arguments with
      | .done => (shop, .ok (picturePath recording))
      | .failed reason => (shop, .error (.reported (.rasterizer recording reason)))
      | .broken label => (shop, .error (.tool label))
  | value => (shop, .error (.commandKind value.kindName))

/-- Whether a number of the header has too many digits. -/
def hasLongNumber (config : Config) : Bool :=
  Text.longNumbers ≤ config.columns || Text.longNumbers ≤ config.lineCount

/-- Writes frames as a recording to a path.  The file is there before the first record is made, and
it holds all records before one that cannot be encoded. -/
def write (config : Config) (path : List Char) (frames : List Frame) (shop : Workshop) :
    Workshop × Except RenderFailure Unit :=
  match shop.save path (.text []) with
  | (shop, .error failure) => (shop, .error failure)
  | (shop, .ok ()) =>
    match records config frames with
    | .error error => (shop, .error (.cast error))
    | .ok records =>
      if hasLongNumber config then (shop, .error .longNumber)
      else
        let (text, fault) := textOf records
        match shop.fill path (.text text), fault with
        | (shop, .ok ()), some fault => (shop, .error (.encoding fault))
        | filled, _ => filled

/-- Writes frames as a recording and makes a picture of it, if that is configured. -/
def render (tools : Tools) (config : Config) (path : List Char) (frames : List Frame)
    (shop : Workshop) : Rendering :=
  match write config path frames shop with
  | (shop, .error failure) => (shop, .error failure)
  | (shop, .ok ()) =>
    if config.castCommand.isSet then rasterize tools config.castCommand path shop
    else (shop, .ok path)

end Screencast.Cast
