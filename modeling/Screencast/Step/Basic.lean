import Screencast.Json.Writer
import Screencast.Json.Display

/-!
# Steps of a script

A `Step` is one thing that the user of the recorded terminal does, or waits for.  `StepError` lists
why a record of a script is no step and why a script cannot be read.
-/

namespace Screencast

/-- A part of the text on the screen: from a column of a line to before a column of another.  Lines
count from 1 and columns from 0. -/
structure Span where
  startLine : Int
  startColumn : Int
  endLine : Int
  endColumn : Int
  deriving DecidableEq, Repr, Inhabited

/-- What a record of a script asks for. -/
inductive Step where
  /-- Types a text character by character. -/
  | typeText (text : Text)
  /-- Deletes the last characters. -/
  | delete (count : Nat)
  /-- Presses return and runs what was typed. -/
  | enter
  /-- Types the clipboard at once. -/
  | paste
  /-- Copies a part of the screen to the clipboard. -/
  | copy (span : Span)
  /-- Types the word for it and clears the screen. -/
  | clear
  /-- Waits until a text is on the screen, but no longer than a time in milliseconds. -/
  | waitFor (text : Text) (timeout : Number)
  deriving Repr, Inhabited

/-- Why a record is no step, or a value no list of them. -/
inductive StepError where
  /-- A record that is no object. -/
  | notAnObject (value : Json)
  | unknownAction (action : Json)
  | noText (record : Json)
  | noAwaitedText (record : Json)
  | badCount (record : Json)
  | badSpan (record : Json)
  /-- A line or column without an integer part. -/
  | badPosition (error : ArithmeticError)
  | badTimeout (record : Json)
  deriving Repr

namespace StepError

def message : StepError → Text
  | .notAnObject value => "Invalid step (expected an object): " ++ Text.ofChars value.inspect
  | .unknownAction action => "Unknown action: " ++ action.display
  | .noText record => "Missing text to type: " ++ record.asciiText
  | .noAwaitedText record => "Missing text to wait for: " ++ record.asciiText
  | .badCount record =>
    "Faulty payload (expected a non-negative integer): " ++ record.asciiText
  | .badSpan record =>
    "Faulty payload (expected startLine, startPos, endLine, endPos): " ++ record.asciiText
  | .badPosition error => error.message
  | .badTimeout record =>
    "Faulty timeout (expected a non-negative number): " ++ record.asciiText

end StepError

end Screencast
