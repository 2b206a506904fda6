import Screencast.CommandLine.Switch

/-!
# Misused command lines

Why a command line is refused, with the message that says so.
-/

namespace Screencast.CommandLine

/-- Why a command line is refused. -/
inductive Misuse where
  /-- A shortened name that several switches could have. -/
  | ambiguous (argument : List Char) (names : List (List Char))
  /-- A switch that takes a value is given none. -/
  | noValue (switch : Switch)
  /-- A switch that takes no value is given one. -/
  | unwantedValue (switch : Switch) (value : List Char)
  /-- A value that is not of the kind that the switch takes. -/
  | badValue (switch : Switch) (kind : String) (value : List Char)
  /-- A value that is none of those to choose from. -/
  | badChoice (switch : Switch) (value : List Char) (choices : List String)
  | noScript
  /-- Arguments that mean nothing. -/
  | surplus (arguments : List (List Char))
  deriving Repr

namespace Misuse

/-- A word in quotes. -/
def quoted (word : List Char) : String := String.ofList (Text.quoted (.ofChars word))

def message : Misuse → String
  | .ambiguous argument names =>
    s!"ambiguous option: {String.ofList argument} could match " ++
      ", ".intercalate (names.map String.ofList)
  | .noValue switch => s!"argument {switch.label}: expected one argument"
  | .unwantedValue switch value =>
    s!"argument {switch.label}: ignored explicit argument {quoted value}"
  | .badValue switch kind value =>
    s!"argument {switch.label}: invalid {kind} value: {quoted value}"
  | .badChoice switch value choices =>
    let listed := ", ".intercalate (choices.map Text.quotedString)
    s!"argument {switch.label}: invalid choice: {quoted value} (choose from {listed})"
  | .noScript => "the following arguments are required: script"
  | .surplus arguments =>
    "unrecognized arguments: " ++ " ".intercalate (arguments.map String.ofList)

end Misuse

end Screencast.CommandLine
