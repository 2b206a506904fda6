import Screencast.Cast.Record
import Screencast.Config.Basic
import Screencast.Disk
import Screencast.Log
import Screencast.Shell.Template
import Screencast.Shell.Words
import Screencast.Text.Encoding

/-!
# Rendering

Rendering frames changes a `Workshop`: the disk, and the journals of what was drawn, which external
programs ran and what was told about it.  `RenderError` lists the failures that a user is told of;
`RenderFailure` adds those that end the program.
-/

namespace Screencast

/-- A failure that is reported to the user. -/
inductive RenderError where
  | unknownRenderer (name : Json)
  | font (path : Json)
  /-- The canvas cannot be made, because its background is no color. -/
  | canvas
  /-- The external program cannot be started, or fails. -/
  | rasterizer (recording : List Char) (reason : String)
  deriving Repr

namespace RenderError

def message : RenderError → Text
  | .unknownRenderer name => "Unknown renderer: " ++ name.display
  | .font path => "Unable to load font \"" ++ path.display ++ "\""
  | .canvas => "Unable to create canvas"
  | .rasterizer recording reason =>
    s!"Unable to rasterize recording \"{String.ofList recording}\": {reason}"

end RenderError

/-- Why a value cannot be used as a color. -/
inductive ColorFault where
  /-- A text that gives no color. -/
  | unknown
  /-- A value of a kind that gives no color. -/
  | kind (kind : String)
  /-- A number too large for drawing. -/
  | range
  deriving DecidableEq, Repr

/-- Why frames are not rendered. -/
inductive RenderFailure where
  | reported (error : RenderError)
  /-- The name of a renderer is a value of a kind that names nothing. -/
  | rendererKind (kind : String)
  /-- A number of a document has more digits than are written. -/
  | longNumber
  /-- A text holds a character that a document cannot hold. -/
  | character
  /-- A text or a path cannot be encoded. -/
  | encoding (fault : EncodingFault)
  /-- An attribute of a document is no text but a value of this kind. -/
  | attribute (kind : String)
  /-- The path of the font is a value of a kind that is no path. -/
  | fontKind (kind : String)
  /-- A picture is wider or higher than pictures can be. -/
  | size
  /-- A picture takes more memory than there is. -/
  | memory
  /-- A picture or a text on it is to have a color that is none. -/
  | color (fault : ColorFault)
  /-- The place of a text is no binary number. -/
  | place (error : ArithmeticError)
  /-- The place of a text is no word. -/
  | farPlace
  /-- The duration of a picture is no integer. -/
  | duration (error : ArithmeticError)
  | disk (error : DiskError)
  | cast (error : CastError)
  /-- The command of the external program is no text but a value of this kind. -/
  | commandKind (kind : String)
  | words (error : Shell.WordsError)
  | template (error : TemplateError)
  /-- A tool breaks off with an error of this kind. -/
  | tool (label : String)
  deriving Repr

/-- Something done for drawing pictures. -/
inductive Stroke where
  | font (path : Json) (size : Nat)
  | canvas (width height : Nat)
  | label (label : Label)
  | palette (colors : Int)
  | save (path : List Char) (animation : Animation)
  deriving Repr

/-- What comes of using a tool. -/
inductive Answer where
  | done
  /-- It fails for a reason, as a user of it expects that it may. -/
  | failed (reason : String)
  /-- It breaks off with an error of this kind. -/
  | broken (label : String)
  deriving DecidableEq, Repr

/-- What rendering depends on besides frames and configuration: an external program, and a library that
finds fonts, draws texts and encodes animations. -/
structure Tools where
  /-- Calls the external program with arguments.  Without any argument, or with one that no program can
  be given, the call breaks off. -/
  rasterizer : List Text → Answer
  /-- Looks for a font by its name and size, among the files and among the fonts of the system. -/
  font : Disk → List Char → Nat → Answer
  /-- The kind of error that drawing a text breaks off with, if it does. -/
  lettering : Label → Option String
  /-- The kind of error that writing an animation to its file breaks off with, if it does. -/
  encoder : Animation → Option String

/-- What rendering changes. -/
structure Workshop where
  disk : Disk
  strokes : Array Stroke
  /-- The arguments of the external programs that ran. -/
  runs : List (List Text)
  log : List LogEntry
  deriving Inhabited

namespace Workshop

def ofDisk (disk : Disk) : Workshop := ⟨disk, #[], [], []⟩

def draw (strokes : List Stroke) (shop : Workshop) : Workshop :=
  { shop with strokes := shop.strokes ++ strokes }

def tell (level : Level) (message : Text) (shop : Workshop) : Workshop :=
  { shop with log := shop.log ++ [⟨"termreplay.anim", level, message⟩] }

/-- Writes a file in a folder that is there. -/
def fill (path : List Char) (content : Content) (shop : Workshop) :
    Workshop × Except RenderFailure Unit :=
  match shop.disk.write path content with
  | .error error => (shop, .error (.disk error))
  | .ok disk => ({ shop with disk }, .ok ())

/-- Writes a file and the folders it lies in. -/
def save (path : List Char) (content : Content) (shop : Workshop) :
    Workshop × Except RenderFailure Unit :=
  match shop.disk.makeFolderOf path with
  | .error error => (shop, .error (.disk error))
  | .ok disk => { shop with disk }.fill path content

end Workshop

/-- What rendering gives: the workshop after it, and the path of the file or a failure. -/
abbrev Rendering := Workshop × Except RenderFailure (List Char)

end Screencast
