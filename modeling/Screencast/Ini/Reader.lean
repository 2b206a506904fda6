import Screencast.Ini.Basic
import Screencast.Text.Case

/-!
# Reading documents with sections

A line opens a section, gives an option a value, or goes on with the value of the option before it,
which it does by standing further to the right.  Comments take whole lines.  Lines that are none of
these are collected, and the other faults end the reading.
-/

namespace Screencast.Ini

/-- What has been read so far. -/
structure Reader where
  document : Ini
  /-- The open section. -/
  openSection : Option (List Char)
  /-- The option whose value may go on. -/
  openOption : Option (List Char)
  /-- The column in which the last section or option began. -/
  indent : Nat
  /-- The options read, each with its section. -/
  seen : List (List Char × List Char)
  malformed : List (Nat × List Char)
  deriving Inhabited, Repr

/-- The name of the section of defaults. -/
def defaultSection : List Char := "DEFAULT".toList

/-- The name in a line that opens a section: what stands between the first bracket and the last. -/
def header? : List Char → Option (List Char)
  | '[' :: rest =>
    let name := ((rest.reverse.dropWhile (· ≠ ']')).drop 1).reverse
    if name.isEmpty then none else some name
  | _ => none

/-- The name and the value in a line that gives an option a value. -/
def option? (line : List Char) : Option (List Char × List Char) :=
  let isDelimiter (c : Char) : Bool := c = '=' || c = ':'
  match line.dropWhile (!isDelimiter ·) with
  | [] => none
  | _ :: value =>
    let name := line.takeWhile (!isDelimiter ·)
    some (Text.dropRightWhile Text.isBlank name, Text.strip value)

namespace Reader

def initial : Reader := ⟨⟨[], []⟩, none, none, 0, [], []⟩

/-- Changes the options of a section. -/
def change (reader : Reader) (inside : List Char) (f : IniOptions → IniOptions) : Reader :=
  let document := reader.document
  if inside = defaultSection then
    { reader with document := { document with defaults := f document.defaults } }
  else
    { reader with document := { document with
        sections := document.sections.map fun old =>
          if old.1 = inside then (old.1, f old.2) else old } }

/-- Adds a line to the value of the open option. -/
def extend (reader : Reader) (line : List Char) : Reader :=
  match reader.openSection, reader.openOption with
  | some inside, some name =>
    reader.change inside fun options =>
      options.map fun old => if old.1 = name then (old.1, old.2 ++ [line]) else old
  | _, _ => reader

/-- Opens a section. -/
def enter (reader : Reader) (number : Nat) (name : List Char) : Except IniFault Reader :=
  let opened := { reader with openSection := some name, openOption := none }
  if reader.document.sections.any (·.1 = name) then .error (.repeatedSection name number)
  else if name = defaultSection then .ok opened
  else
    .ok { opened with document := { opened.document with
            sections := opened.document.sections ++ [(name, [])] } }

/-- Gives an option a value.  An option without a name is malformed, but counts as one. -/
def define (reader : Reader) (number : Nat) (whole inside name value : List Char) :
    Except IniFault Reader :=
  let small := Text.toLower name
  if reader.seen.contains (inside, small) then .error (.repeatedOption small inside number)
  else
    let reader := { reader with
      seen := (inside, small) :: reader.seen
      openOption := if small.isEmpty then none else some small
      malformed := if name.isEmpty then reader.malformed ++ [(number, whole)]
        else reader.malformed }
    .ok (reader.change inside fun options => override options (small, [value]))

/-- Reads a line with its line end; `number` counts from 1. -/
def line (reader : Reader) (number : Nat) (whole : List Char) : Except IniFault Reader :=
  let text := Text.strip whole
  if text.head? = some '#' ∨ text.head? = some ';' then .ok reader
  else if text.isEmpty then .ok (reader.extend [])
  else
    let indent := (whole.takeWhile Text.isBlank).length
    if reader.openSection.isSome ∧ reader.openOption.isSome ∧ reader.indent < indent then
      .ok (reader.extend text)
    else
      let reader := { reader with indent }
      match header? text with
      | some name => reader.enter number name
      | none =>
        match reader.openSection with
        | none => .error (.noHeader number whole)
        | some inside =>
          match option? text with
          | some (name, value) => reader.define number whole inside name value
          | none => .ok { reader with malformed := reader.malformed ++ [(number, whole)] }

/-- Reads lines, the first of which has the given number. -/
def lines (reader : Reader) (number : Nat) : List (List Char) → Except IniFault Reader
  | [] => .ok reader
  | whole :: rest => do lines (← reader.line number whole) (number + 1) rest

end Reader

/-- The document that a text consists of. -/
def read (text : List Char) : Except IniFault Ini := do
  let reader ← Reader.initial.lines 1 (Text.linesWithEnds text)
  if reader.malformed.isEmpty then return reader.document
  else .error (.malformed reader.malformed)

end Screencast.Ini
