import Screencast.Disk
import Screencast.Json.Reader

/-!
# Scripts

A script is a file that holds a list of records.
-/

namespace Screencast

/-- Why a file is no script. -/
inductive ScriptError where
  /-- The file cannot be read, or what it holds is no data. -/
  | unreadable (path : List Char) (reason : String)
  /-- The file does not hold a list. -/
  | notAList (path : List Char)
  /-- The file holds a value beyond a limit. -/
  | limit (limit : Json.Limit)
  /-- The path is none that a file can have. -/
  | impossiblePath (error : DiskError)

namespace ScriptError

def message : ScriptError → String
  | .unreadable path reason => s!"Unable to read script \"{String.ofList path}\": {reason}"
  | .notAList path =>
    s!"Invalid script \"{String.ofList path}\": expected a list of steps"
  | .limit reached => reached.message
  | .impossiblePath error => error.message

end ScriptError

/-- The records of a script. -/
def readScript (disk : Disk) (path : List Char) : Except ScriptError (List Json) :=
  match disk.readText path with
  | .error error =>
    .error <|
      if error.fault = .nullCharacter then .impossiblePath error
      else .unreadable path error.message
  | .ok text =>
    match Json.read text with
    | .error (.limit limit) => .error (.limit limit)
    | .error error => .error (.unreadable path error.message)
    | .ok (.array records) => .ok records
    | .ok _ => .error (.notAList path)

end Screencast
