import Screencast.Text.Quoted
import Screencast.Text.Lines
import Screencast.Text.Blank
import Screencast.Number.Decimal

/-!
# Documents with sections

An `Ini` document is a list of named sections with options.  The section of defaults stands apart:
its options are options of every section that does not give them itself.
-/

namespace Screencast

/-- Options with the lines of their values, in order. -/
abbrev IniOptions := List (List Char × List (List Char))

/-- A document: the defaults and the sections in order. -/
structure Ini where
  defaults : IniOptions
  sections : List (List Char × IniOptions)
  deriving Inhabited, Repr

/-- Why a text is no document; lines are counted from 1. -/
inductive IniFault where
  /-- An option stands before the first section. -/
  | noHeader (line : Nat) (text : List Char)
  | repeatedSection (name : List Char) (line : Nat)
  | repeatedOption (name : List Char) (inside : List Char) (line : Nat)
  /-- Lines that are neither a section nor an option. -/
  | malformed (lines : List (Nat × List Char))
  deriving DecidableEq, Repr

namespace IniFault

/-- A number padded to two places. -/
def lineText (line : Nat) : String :=
  "[line " ++ (if line < 10 then " " else "") ++ toString line ++ "]"

def quote (text : List Char) : String := String.ofList (Text.quoted (.ofChars text))

/-- The message for a document that was read from a path. -/
def message (path : List Char) : IniFault → String
  | .noHeader line text =>
    s!"File contains no section headers.\nfile: {quote path}, line: {line}\n{quote text}"
  | .repeatedSection name line =>
    s!"While reading from {quote path} {lineText line}: section {quote name} already exists"
  | .repeatedOption name inside line =>
    s!"While reading from {quote path} {lineText line}: option {quote name} in section " ++
      s!"{quote inside} already exists"
  | .malformed lines =>
    s!"Source contains parsing errors: {quote path}" ++
      String.join (lines.map fun (line, text) => s!"\n\t{lineText line}: {quote text}")

end IniFault

namespace Ini

/-- The value that lines form: joined, without the blanks at the end. -/
def valueText (lines : List (List Char)) : List Char :=
  Text.dropRightWhile Text.isBlank (Text.joinWith ['\n'] lines)

/-- Gives an option a value; one that is there keeps its place. -/
def override (options : IniOptions) (option : List Char × List (List Char)) : IniOptions :=
  if options.any (·.1 = option.1) then
    options.map fun old => if old.1 = option.1 then option else old
  else options ++ [option]

/-- The options of a section, the defaults first. -/
def options? (document : Ini) (name : List Char) : Option (List (List Char × List Char)) :=
  (document.sections.find? (·.1 = name)).map fun found =>
    (found.2.foldl override document.defaults).map fun option => (option.1, valueText option.2)

end Ini

end Screencast
