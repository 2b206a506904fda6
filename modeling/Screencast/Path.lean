import Screencast.Text.Lines
import Screencast.Text.Blank

/-!
# Paths as texts

A path is a text with slashes between the names of its folders.  The functions of this module only
look at the text: the folder and the extension of a path, the exchange of its extension, and the
form of a path without detours.
-/

namespace Screencast.Path

/-- The folder with the slash after it, and the name of the file. -/
def split (path : List Char) : List Char × List Char :=
  ((path.reverse.dropWhile (· ≠ '/')).reverse, (path.reverse.takeWhile (· ≠ '/')).reverse)

/-- A name up to its last dot and from there on.  The dots that a name begins with start no
extension. -/
def splitName (name : List Char) : List Char × List Char :=
  let extension := (name.reverse.takeWhile (· ≠ '.')).reverse
  let stem := ((name.reverse.dropWhile (· ≠ '.')).drop 1).reverse
  if stem.any (· ≠ '.') then (stem, '.' :: extension) else (name, [])

/-- A path without its extension, and the extension with its dot. -/
def splitExtension (path : List Char) : List Char × List Char :=
  let (folder, name) := split path
  let (stem, extension) := splitName name
  (folder ++ stem, extension)

/-- Gives a path another extension; an empty one takes the extension away. -/
def setExtension (path extension : List Char) : List Char :=
  let root := (splitExtension path).1
  if extension.isEmpty then root else root ++ '.' :: extension

/-- The folder of a path without the slashes after it, except for the root. -/
def folder (path : List Char) : List Char :=
  let head := (split path).1
  if head.all (· = '/') then head else Text.dropRightWhile (· = '/') head

/-- The names of a path, empty ones between neighbouring slashes included. -/
def names (path : List Char) : List (List Char) := Text.splitAt '/' path

/-- Whether a path starts at the root. -/
def isAbsolute (path : List Char) : Bool := path.head? = some '/'

/-- Follows one name; the folders passed so far come last first.  Above the root there is nothing,
above a relative path there may be more. -/
def enter (absolute : Bool) (passed : List (List Char)) (name : List Char) : List (List Char) :=
  if name = [] ∨ name = ['.'] then passed
  else if name = ['.', '.'] then
    match passed with
    | [] => if absolute then [] else [name]
    | last :: rest => if last = ['.', '.'] then name :: passed else rest
  else name :: passed

/-- The path without detours.  Two slashes at its start are kept, more count as one. -/
def normalize (path : List Char) : List Char :=
  let slashes := (path.takeWhile (· = '/')).length
  let root := if slashes = 2 then ['/', '/'] else if slashes = 0 then [] else ['/']
  let passed := (names path).foldl (enter (slashes ≠ 0)) []
  let text := root ++ Text.joinWith ['/'] passed.reverse
  if text.isEmpty then ['.'] else text

/-- The path from the root, for a path taken from a folder. -/
def absolute (current path : List Char) : List Char :=
  normalize (if isAbsolute path then path else current ++ '/' :: path)

end Screencast.Path
