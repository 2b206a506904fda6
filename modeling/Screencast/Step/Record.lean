import Screencast.Step.Basic

/-!
# Steps from records

A record is an object with an action and what the action needs.  `Step.ofRecord` reads it.
-/

namespace Screencast.Step

/-- How long a text is waited for when the record does not say, in milliseconds. -/
def defaultTimeout : Nat := 5000

/-- The text of a payload: any value but null. -/
def payloadText? (record : Json) : Option Text :=
  match record.get? "payload" with
  | none | some .null => none
  | some payload => some payload.display

/-- A number of characters. -/
def payloadCount? (record : Json) : Option Nat :=
  match record.get? "payload" with
  | some (.int n) => if n < 0 then none else some n.toNat
  | _ => none

/-- The four numbers of a span. -/
def payloadSpan? (record : Json) : Option (Number × Number × Number × Number) := do
  let payload ← record.get? "payload"
  let field (name : String) : Option Number := (payload.get? name).bind Json.number?
  return (← field "startLine", ← field "startPos", ← field "endLine", ← field "endPos")

/-- The span of which four numbers are the lines and columns; fractions are dropped. -/
def truncateSpan (numbers : Number × Number × Number × Number) : Except ArithmeticError Span :=
  let (startLine, startColumn, endLine, endColumn) := numbers
  return {
    startLine := ← startLine.truncate
    startColumn := ← startColumn.truncate
    endLine := ← endLine.truncate
    endColumn := ← endColumn.truncate }

/-- The time to wait, which two members may give; it has to be a number and not negative. -/
def timeout? (record : Json) : Option Number :=
  let value := ((record.get? "timeoutMs").orElse fun _ => record.get? "timeout").getD
    (.int defaultTimeout)
  match value.number? with
  | some timeout => if timeout.isNegative then none else some timeout
  | none => none

/-- Reads a wait record. -/
def ofWaitRecord (record : Json) : Except StepError Step :=
  match payloadText? record with
  | none => .error (.noAwaitedText record)
  | some text =>
    match timeout? record with
    | none => .error (.badTimeout record)
    | some timeout => .ok (.waitFor text timeout)

/-- Reads a copy record. -/
def ofCopyRecord (record : Json) : Except StepError Step :=
  match payloadSpan? record with
  | none => .error (.badSpan record)
  | some numbers =>
    match truncateSpan numbers with
    | .ok span => .ok (.copy span)
    | .error error => .error (.badPosition error)

/-- The step that a record with this action asks for. -/
def ofAction (action : Text) (record : Json) : Except StepError Step :=
  match action.string? with
  | some "type" => ((payloadText? record).map typeText).elim (.error (.noText record)) .ok
  | some "delete" => ((payloadCount? record).map delete).elim (.error (.badCount record)) .ok
  | some "enter" => .ok enter
  | some "paste" => .ok paste
  | some "copy" => ofCopyRecord record
  | some "clear" => .ok clear
  | some "waitForOutput" => ofWaitRecord record
  | _ => .error (.unknownAction (.string action))

/-- The step that a record asks for. -/
def ofRecord (record : Json) : Except StepError Step :=
  match record with
  | .object _ =>
    match (record.get? "action").getD .null with
    | .string action => ofAction action record
    | action => .error (.unknownAction action)
  | value => .error (.notAnObject value)

end Screencast.Step
