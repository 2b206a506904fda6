import Screencast.Json.Reader
import Screencast.Json.Writer
import Screencast.Disk

/-!
# Records of terminal recordings

A recording is a file of lines, each of them a record: the first one a header with the size of the
terminal, the others events at their times.  A record is written as data on one line.
-/

namespace Screencast

/-- A record. -/
inductive CastRecord where
  | header (width height : Json) (title : Option Text)
  | event (time : Json) (kind data : Text)
  deriving Inhabited, Repr

/-- Why there is no record. -/
inductive CastError where
  /-- The line holds no data, or not as many parts as an event has. -/
  | noRecord
  /-- The line holds neither an object nor a list. -/
  | unknownKind (line : List Char)
  /-- A part is of a kind that it must not have. -/
  | part (name kind : String) (expected : String)
  | version
  deriving DecidableEq, Repr

namespace CastError

/-- A line of this length or more is cut in messages. -/
def longestShown : Nat := 20

def message : CastError → String
  | .noRecord => ""
  | .unknownKind line =>
    let shown := if line.length < longestShown then line
      else line.take longestShown ++ "...".toList
    s!"Unknown record type: \"{String.ofList shown}\""
  | .part name kind expected =>
    s!"Invalid type for attribute {name}: <class '{kind}'> (expected one of {expected})"
  | .version => "Only asciicast v2 format is supported"

end CastError

/-- Why a line is not read. -/
inductive CastReadError where
  | record (error : CastError)
  /-- The line holds no data. -/
  | malformed (error : Json.ReadError)
  /-- A header is read from a value that is no object. -/
  | noMembers (kind : String)
  /-- An event is read from a value without parts. -/
  | noParts (kind : String)
  deriving Repr

namespace CastRecord

/-- The version of the format. -/
def version : Int := 2

/-- Integers, truth values among them. -/
def isWhole : Json → Bool
  | .int _ | .bool _ => true
  | _ => false

/-- Checks that a part is an integer. -/
def wholePart (name : String) (value : Json) : Except CastError Unit :=
  if isWhole value then .ok () else .error (.part name value.kindName "<class 'int'>")

/-- Checks that a part is a string. -/
def textPart (name : String) (value : Json) : Except CastError Text :=
  match value.string? with
  | some s => .ok s
  | none => .error (.part name value.kindName "(<class 'str'>,)")

/-- A header with these parts. -/
def ofHeader (versionPart width height title : Json) : Except CastError CastRecord := do
  wholePart "version" versionPart
  wholePart "width" width
  wholePart "height" height
  let title ← match title with
    | .null => pure none
    | .string s => pure (some s)
    | value => .error (.part "title" value.kindName "(<class 'NoneType'>, <class 'str'>)")
  match versionPart with
  | .int n => if n = version then return .header width height title else .error .version
  | _ => .error .version

/-- An event with these parts. -/
def ofEvent (time kind data : Json) : Except CastError CastRecord := do
  match time with
  | .int _ | .bool _ | .real _ => pure ()
  | value => .error (.part "time" value.kindName "(<class 'int'>, <class 'float'>)")
  let kind ← textPart "event_type" kind
  let data ← textPart "event_data" data
  return .event time kind data

/-- The parts of a record with their names. -/
def fields : CastRecord → List (String × Json)
  | .header width height title =>
    [("version", .int version), ("width", width), ("height", height),
     ("title", (title.map Json.string).getD .null)]
  | .event time kind data =>
    [("time", time), ("event_type", .string kind), ("event_data", .string data)]

/-- The data that stands for a record; a header without a title does not mention it. -/
def toJson : CastRecord → Json
  | .header width height title =>
    let size : List (Text × Json) :=
      [("version", .int version), ("width", width), ("height", height)]
    let name : Option (Text × Json) := title.map fun title => ("title", .string title)
    .object (size ++ name.toList)
  | .event time kind data => .array [time, .string kind, .string data]

/-- The line of a record. -/
def line (record : CastRecord) : Text := Json.write .unicode record.toJson

/-- The header that an object stands for. -/
def headerOf (value : Json) : Except CastReadError CastRecord :=
  match value with
  | .object _ =>
    let part (name : String) : Json := (value.get? name).getD .null
    (ofHeader (part "version") (part "width") (part "height") (part "title")).mapError .record
  | value => .error (.noMembers value.kindName)

/-- The event that a value stands for. -/
def eventOf (value : Json) : Except CastReadError CastRecord :=
  match value.elements? with
  | none => .error (.noParts value.kindName)
  | some [time, kind, data] => (ofEvent time kind data).mapError .record
  | some _ => .error (.record .noRecord)

/-- Reads a header from a line. -/
def readHeader (text : List Char) : Except CastReadError CastRecord :=
  match Json.read text with
  | .error error => .error (.malformed error)
  | .ok value => headerOf value

/-- Reads an event from a line. -/
def readEvent (text : List Char) : Except CastReadError CastRecord :=
  match Json.read text with
  | .error (.limit .depth) => .error (.malformed (.limit .depth))
  | .error _ => .error (.record .noRecord)
  | .ok value => eventOf value

/-- Reads a record from a line: a header from an object, an event from a list. -/
def read (text : List Char) : Except CastReadError CastRecord :=
  match Json.read text with
  | .error (.limit limit) => .error (.malformed (.limit limit))
  | .error _ => .error (.record .noRecord)
  | .ok (.object members) => headerOf (.object members)
  | .ok (.array items) => eventOf (.array items)
  | .ok _ => .error (.record (.unknownKind text))

/-- Reads lines up to the first that is no record; blank lines count for nothing. -/
def readLines : List (List Char) → List CastRecord × Option CastReadError
  | [] => ([], none)
  | text :: rest =>
    if (Text.strip text).isEmpty then readLines rest
    else
      match read text with
      | .error error => ([], some error)
      | .ok record =>
        let (records, error) := readLines rest
        (record :: records, error)

/-- Reads the records of a text. -/
def readAll (text : List Char) : List CastRecord × Option CastReadError :=
  readLines (Text.linesWithEnds text)

end CastRecord

end Screencast
