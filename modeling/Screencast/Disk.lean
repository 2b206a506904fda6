import Screencast.Animation
import Screencast.Path
import Screencast.Text.Quoted
import Std.Data.TreeMap

/-!
# Files and folders

A `Disk` is what a program sees of a file system: the files and folders at their places, and the
folder that relative paths start from.  Each operation says why it fails, and one that fails leaves
the disk as it was.
-/

namespace Screencast

/-- What a file holds. -/
inductive Content where
  | text (text : List Char)
  | animation (animation : Animation)
  /-- The beginning of an animation whose writing broke off. -/
  | fragment (animation : Animation)
  deriving Inhabited, Repr

/-- What is found at a place. -/
inductive Entry where
  | folder
  | file (content : Content)
  deriving Inhabited, Repr

/-- The names that lead from the root to a file or folder. -/
abbrev Place := List (List Char)

/-- Why an operation on a path fails. -/
inductive DiskFault where
  | notFound
  | alreadyThere
  | notFolder
  | isFolder
  | nameTooLong
  /-- The path holds the null character. -/
  | nullCharacter
  /-- More folders are missing than are made at once. -/
  | tooManyFolders
  deriving DecidableEq, Repr

/-- A fault and the path it concerns. -/
structure DiskError where
  fault : DiskFault
  path : List Char
  deriving DecidableEq, Repr

namespace DiskError

/-- The number and the words of a fault, then the path in quotes. -/
def message (error : DiskError) : String :=
  let numbered (number : Nat) (words : String) : String :=
    s!"[Errno {number}] {words}: " ++ String.ofList (Text.quoted (.ofChars error.path))
  match error.fault with
  | .notFound => numbered 2 "No such file or directory"
  | .alreadyThere => numbered 17 "File exists"
  | .notFolder => numbered 20 "Not a directory"
  | .isFolder => numbered 21 "Is a directory"
  | .nameTooLong => numbered 36 "File name too long"
  | .nullCharacter => "embedded null byte"
  | .tooManyFolders => "maximum recursion depth exceeded"

end DiskError

/-- The entries of a file system and the folder that relative paths start from. -/
structure Disk where
  entries : Std.TreeMap Place Entry
  current : Place
  /-- How many files have been given a name of their own. -/
  unnamed : Nat
  deriving Inhabited, Repr

namespace Disk

/-- The entry at a place; the root is always there. -/
def entry? (disk : Disk) (place : Place) : Option Entry :=
  if place = [] then some .folder else disk.entries[place]?

def isFolder (disk : Disk) (place : Place) : Bool :=
  match disk.entry? place with
  | some .folder => true
  | _ => false

/-- Puts an entry at a place. -/
def put (place : Place) (entry : Entry) (disk : Disk) : Disk :=
  { disk with entries := disk.entries.insert place entry }

/-- Number of bytes of a text. -/
def byteCount (text : List Char) : Nat :=
  text.foldl (fun sum c => sum + c.utf8Size) 0

/-- The greatest number of bytes of a name. -/
def longestName : Nat := 255

/-- The greatest number of bytes of a path. -/
def longestPath : Nat := 4095

/-- Follows names from a place.  Each name is looked up in a folder; the last one need not be
there. -/
def follow (disk : Disk) : Place → List (List Char) → Except DiskFault Place
  | place, [] => .ok place
  | place, name :: rest =>
    match disk.entry? place with
    | none => .error .notFound
    | some (.file _) => .error .notFolder
    | some .folder =>
      if name = [] ∨ name = ['.'] then follow disk place rest
      else if name = ['.', '.'] then follow disk place.dropLast rest
      else if longestName < byteCount name then .error .nameTooLong
      else follow disk (place ++ [name]) rest

/-- The place that a path means, for the names of it that are left to follow from a place. -/
def locateFrom (disk : Disk) (place : Place) (names : List (List Char)) (path : List Char) :
    Except DiskError Place :=
  let result : Except DiskFault Place :=
    if path.contains (Char.ofNat 0) then .error .nullCharacter
    else if path.isEmpty then .error .notFound
    else if longestPath < byteCount path then .error .nameTooLong
    else disk.follow place names
  result.mapError (⟨·, path⟩)

/-- The place that a path means. -/
def locate (disk : Disk) (path : List Char) : Except DiskError Place :=
  disk.locateFrom (if Path.isAbsolute path then [] else disk.current) (Path.names path) path

/-- What a path leads to. -/
def find? (disk : Disk) (path : List Char) : Option Entry :=
  match disk.locate path with
  | .ok place => disk.entry? place
  | .error _ => none

/-- The content of a file. -/
def read (disk : Disk) (path : List Char) : Except DiskError Content := do
  match disk.entry? (← disk.locate path) with
  | none => .error ⟨.notFound, path⟩
  | some .folder => .error ⟨.isFolder, path⟩
  | some (.file content) => return content

/-- The text of a file with line feeds as its line ends; a file that is no text reads as empty. -/
def readText (disk : Disk) (path : List Char) : Except DiskError (List Char) := do
  match ← disk.read path with
  | .text text => return Text.normalizeLineEnds text
  | .animation _ | .fragment _ => return []

/-- Writes a whole file, which is created if it is not there. -/
def write (path : List Char) (content : Content) (disk : Disk) : Except DiskError Disk := do
  let place ← disk.locate path
  match disk.entry? place with
  | some .folder => .error ⟨.isFolder, path⟩
  | _ => return disk.put place (.file content)

/-- A path without its last name, and that name; slashes at the end do not count. -/
def parent (path : List Char) : List Char × List Char :=
  let (_, name) := Path.split path
  if name.isEmpty then (Path.folder (Path.folder path), (Path.split (Path.folder path)).2)
  else (Path.folder path, name)

/-- What making folders gives: the disk with those that were made, and the place of the last one. -/
abbrev Making := Disk × Except DiskError Place

/-- Makes the folder at the place that a path means, unless it is there. -/
def makeFolderAt (path : List Char) (located : Except DiskError Place) (disk : Disk) : Making :=
  match located with
  | .error error => (disk, .error error)
  | .ok place =>
    match disk.entry? place with
    | none => (disk.put place .folder, .ok place)
    | some .folder => (disk, .ok place)
    | some (.file _) => (disk, .error ⟨.alreadyThere, path⟩)

/-- The greatest number of folders that are made at once. -/
def mostFolders : Nat := 990

/-- Makes a folder and the folders it lies in, so many at most, as far as they are not there.  A
file in the way only counts where a folder is to be made in it. -/
def makeFoldersWithin : Nat → List Char → Disk → Making
  | 0, path, disk => (disk, .error ⟨.tooManyFolders, path⟩)
  | most + 1, path, disk =>
    let (above, name) := parent path
    if above = [] ∨ name = [] ∨ (disk.find? above).isSome then
      disk.makeFolderAt path (disk.locate path)
    else
      match makeFoldersWithin most above disk with
      | (disk, .ok place) =>
        if name = ['.'] then (disk, .ok place)
        else disk.makeFolderAt path (disk.locateFrom place [name] path)
      | (disk, .error error) =>
        if error.fault = .alreadyThere then disk.makeFolderAt path (disk.locate path)
        else (disk, .error error)

/-- Makes a folder and the folders it lies in; what is there already stays. -/
def makeFolders (path : List Char) (disk : Disk) : Except DiskError Disk :=
  let (disk, made) := makeFoldersWithin mostFolders path disk
  made.map fun _ => disk

/-- Makes the folder that a file is to lie in. -/
def makeFolderOf (path : List Char) (disk : Disk) : Except DiskError Disk :=
  let folder := Path.folder path
  if folder.isEmpty then .ok disk else disk.makeFolders folder

/-- The path of the current folder. -/
def currentPath (disk : Disk) : List Char :=
  '/' :: Text.joinWith ['/'] disk.current

/-- Creates an empty file with a name that no other call gives, and returns its path. -/
def createUnnamed (start ending : List Char) (disk : Disk) : List Char × Disk :=
  let number := disk.unnamed + 1
  let name := start ++ Nat.toDigits 10 number ++ ending
  (disk.currentPath ++ '/' :: name,
    { disk with unnamed := number }.put (disk.current ++ [name]) (.file (.text [])))

/-- The files with their places. -/
def files (disk : Disk) : List (Place × Content) :=
  disk.entries.toList.filterMap fun
    | (place, .file content) => some (place, content)
    | (_, .folder) => none

end Disk

end Screencast
