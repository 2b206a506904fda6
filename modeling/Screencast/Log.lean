import Screencast.Text.Basic

/-!
# The log

What a program tells about its work.
-/

namespace Screencast

inductive Level where
  | debug
  | info
  | error
  deriving DecidableEq, Repr

def Level.name : Level → String
  | .debug => "DEBUG"
  | .info => "INFO"
  | .error => "ERROR"

/-- An entry of the log: which part of the program tells it, how important it is, and what it is
about. -/
structure LogEntry where
  source : String
  level : Level
  message : Text
  deriving DecidableEq, Repr

/-- The line of an entry in a log file, behind what tells the time. -/
def LogEntry.line (time : List Char) (entry : LogEntry) : Text :=
  Text.ofChars time ++ s!"{entry.source} - {entry.level.name} - " ++ entry.message ++ "\n"

end Screencast
