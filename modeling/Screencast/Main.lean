import Screencast.Program
import Screencast.Text.Utf8

/-!
# The command line

`main` loads the files that a command line is about, runs the program on them, and then performs
what it did: it shows and tells the texts, waits, and writes the files.  Neither commands nor the
external program for pictures are started from here, and pictures are written as lists of what is
drawn on them.
-/

namespace Screencast.CommandLine

/-- The text of a file. -/
def textOfBytes (bytes : ByteArray) : List Char :=
  (Text.Utf8.run .start (bytes.toList.map UInt8.toNat)).2

/-- Adds what is found on the way along some names, starting from a place. -/
def loadFrom (place : Place) (disk : Disk) : List (List Char) → IO Disk
  | [] => return disk
  | name :: rest => do
    let place := place ++ [name]
    match ← (IO.FS.readBinFile (String.ofList ('/' :: Text.joinWith ['/'] place))).toBaseIO with
    | .ok bytes => return disk.put place (.file (.text (textOfBytes bytes)))
    | .error (.noFileOrDirectory _ _ _) => return disk
    | .error _ => loadFrom place (disk.put place .folder) rest

/-- Adds what a path leads to. -/
def load (disk : Disk) (path : List Char) : IO Disk :=
  let names := Path.names (Path.absolute disk.currentPath path)
  loadFrom [] disk (names.filter fun name => !name.isEmpty)

/-- The paths that a request is about. -/
def pathsOf (request : Request) (surrounding : Option (List Char)) : List (List Char) :=
  ['.'] :: request.script :: request.choices.config.value?.toList ++
    (request.outputPath.or surrounding).toList.flatMap fun path =>
      path :: Renderer.all.map fun renderer => Path.setExtension path renderer.extension.toList

/-- The path of the font, if the configuration names one. -/
def fontOf (disk : Disk) (request : Request) : Option (List Char) :=
  match prepare disk request with
  | .ok (config, _) => config.fontPath.string?.map Text.chars
  | .error _ => none

/-- The disk with everything that the arguments are about. -/
def loadAll (current : List Char) (surrounding : Option (List Char))
    (arguments : List (List Char)) : IO Disk := do
  let disk : Disk := ⟨∅, (Path.names current).filter fun name => !name.isEmpty, ← IO.rand 0 999999⟩
  match Request.ofArguments arguments with
  | .error _ => return disk
  | .ok request =>
    let disk ← (pathsOf request surrounding).foldlM load disk
    (fontOf disk request).toList.foldlM load disk

/-- The beginnings of font files. -/
def fontMarks : List String := ["\x00\x01\x00\x00", "OTTO", "true", "ttcf"]

def isFontFile (disk : Disk) (path : List Char) : Bool :=
  match disk.read path with
  | .ok (.text text) => fontMarks.any fun mark => mark.toList.isPrefixOf text
  | _ => false

/-- Only command lines without commands have everything they need here. -/
def surroundings (disk : Disk) (outputPath : Option (List Char)) (entropy : Twister) :
    Surroundings where
  disk
  outputPath
  commands _ command := .refused (.failed (.command (.notStarted command "no commands here")))
  tools :=
    { rasterizer := fun _ => .failed "no external programs here"
      font := fun disk name _ => if isFontFile disk name then .done else .failed "not found"
      lettering := fun _ => none
      encoder := fun _ => none }
  interrupts _ := false
  time := []
  entropy

/-- What is drawn on pictures, line by line. -/
def listing (animation : Animation) : List Char :=
  (animation.pictures.zip animation.durations).flatMap fun (picture, duration) =>
    s!"{picture.width} {picture.height} {duration}\n".toList ++
      picture.labels.flatMap fun label =>
        s!"{label.x} {label.y} ".toList ++ label.text.replaced ++ ['\n']

def textOfContent : Content → List Char
  | .text text => text
  | .animation animation | .fragment animation => listing animation

/-- Writes the entries that a disk did not have before. -/
def saveChanges (before after : Disk) : IO Unit :=
  after.entries.toList.forM fun (place, entry) => do
    let path := String.ofList ('/' :: Text.joinWith ['/'] place)
    match entry, before.entry? place with
    | .folder, none => IO.FS.createDirAll path
    | .folder, some _ => pure ()
    | .file content, old =>
      let text := textOfContent content
      let isKnown : Bool := match old with
        | some (.file (.text known)) => known = text
        | _ => false
      unless isKnown do IO.FS.writeFile path (String.ofList text)

/-- A time in seconds in whole milliseconds. -/
def milliseconds (seconds : Binary64) : UInt32 :=
  match (seconds.mul (.ofInt 1000)).floor with
  | .ok n => n.toNat.toUInt32
  | .error _ => 0

/-- Performs an effect; entries of the log are written with the other files. -/
def perform : Effect → IO Unit
  | .show text => do
    IO.print (String.ofList text)
    (← IO.getStdout).flush
  | .tell text => IO.eprint (String.ofList text.escaped)
  | .record _ => pure ()
  | .pause seconds => IO.sleep (milliseconds seconds)

/-- Runs the program on a command line; gives its exit code. -/
def run (arguments : List (List Char)) : IO UInt32 := do
  let current := (← IO.currentDir).toString.toList
  let outputPath := (← IO.getEnv "OUTPUT_PATH").map String.toList
  let disk ← loadAll current outputPath arguments
  let entropy := Twister.ofSeed (← IO.rand 0 (0xFFFFFFFF))
  let execution := Execution.ofArguments (surroundings disk outputPath entropy) arguments
  execution.effects.forM perform
  saveChanges disk execution.disk
  match execution.result with
  | .ok code => return code.toUInt32
  | .error _ =>
    IO.eprintln "termreplay: the recording broke down"
    return 1

end Screencast.CommandLine

def main (arguments : List String) : IO UInt32 :=
  Screencast.CommandLine.run (arguments.map String.toList)
