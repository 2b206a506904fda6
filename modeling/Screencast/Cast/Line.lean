import Screencast.Cast.Record
import Screencast.Json.Codes

/-!
# Records on lines of any text

A line may be made of a record, and then it has the surrogates that the strings of the record have.
`CastRecord.ofLine` reads such lines.  On the line of a file it is `CastRecord.read`.
-/

namespace Screencast

/-- Why a line gives no record. -/
inductive LineError where
  | read (error : CastReadError)
  /-- The line holds neither an object nor a list. -/
  | unknownKind (line : Text)
  deriving Repr

namespace LineError

/-- What is said of a line that holds no record; nothing is said of one that is beyond a limit. -/
def message? : LineError → Option Text
  | .read (.record error) => some error.message
  | .unknownKind line =>
    let shown := if line.length < CastError.longestShown then line
      else line.take CastError.longestShown ++ "..."
    some ("Unknown record type: \"" ++ shown ++ "\"")
  | .read _ => none

/-- The error of a line of a file. -/
def ofRead : CastReadError → LineError
  | .record (.unknownKind line) => .unknownKind (Text.ofChars line)
  | error => .read error

end LineError

/-- Reads a record from a line: a header from an object, an event from a list. -/
def CastRecord.ofLine (line : Text) : Except LineError CastRecord :=
  match Json.readCodes line with
  | .error (.limit limit) => .error (.read (.malformed (.limit limit)))
  | .error _ => .error (.read (.record .noRecord))
  | .ok (.object members) => (headerOf (.object members)).mapError LineError.ofRead
  | .ok (.array items) => (eventOf (.array items)).mapError LineError.ofRead
  | .ok _ => .error (.unknownKind line)

end Screencast
