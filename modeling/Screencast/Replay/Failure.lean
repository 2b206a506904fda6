import Screencast.Command.Program
import Screencast.Frame.Projection
import Screencast.Step.Basic
import Screencast.Text.Encoding

/-!
# What stops a replay

A replay halts when a step fails, when the user interrupts it, or by waiting without end.
-/

namespace Screencast

/-- A command that cannot be run to its end. -/
inductive CommandError where
  | notStarted (command : Text) (reason : String)
  | terminated (command : Text) (signal : Nat)
  deriving DecidableEq, Repr

namespace CommandError

def message : CommandError → Text
  | .notStarted command reason => "Unable to run command \"" ++ command ++ s!"\": {reason}"
  | .terminated command signal => "Command \"" ++ command ++ s!"\" terminated by signal {signal}"

end CommandError

/-- Why a step fails. -/
inductive Failure where
  /-- A record is no step. -/
  | step (error : StepError)
  /-- The records are no list but a value of this kind. -/
  | records (kind : String)
  /-- A value to be carried out is no step. -/
  | unknownStep (value : Json)
  /-- A number of characters to delete that is none. -/
  | deletion (value : Json)
  /-- A time to let pass that is no number but a value of this kind. -/
  | duration (kind : String)
  /-- A text did not appear in time. -/
  | timeout (text : Text)
  | command (error : CommandError)
  /-- The output of a command cannot be read. -/
  | output (fault : Terminal.Fault)
  | projection (error : ProjectionError)
  /-- The preview cannot show a frame. -/
  | preview (fault : Text.SizeFault)
  /-- What the preview is to show cannot be encoded. -/
  | encoding (fault : EncodingFault)
  | arithmetic (error : ArithmeticError)
  /-- A command fails in a way of its own, with the name of the kind of failure. -/
  | foreign (label : String) (message : Text)
  deriving Repr

namespace Failure

def message : Failure → Text
  | .step error => error.message
  | .records kind => s!"'{kind}' object is not iterable"
  | .unknownStep value => "Unknown step: " ++ Text.ofChars value.inspect
  | .deletion value => "Invalid number of characters to delete: " ++ Text.ofChars value.inspect
  | .duration kind => s!"unsupported duration: '{kind}'"
  | .timeout text => "Timeout waiting for output: \"" ++ text ++ "\""
  | .command error => error.message
  | .output fault => fault.message
  | .projection error => error.message
  | .preview fault => fault.message
  | .encoding fault => fault.message
  | .arithmetic error => error.message
  | .foreign _ message => message

/-- The name of the kind of a failure that may have no message. -/
def label : Failure → String
  | .output fault => fault.label
  | .projection error => error.label
  | .preview fault => fault.label
  | .foreign label _ => label
  | _ => ""

/-- What is shown of a failure: its message or, if it is empty, its kind. -/
def text (failure : Failure) : Text :=
  if failure.message.isEmpty then failure.label else failure.message

end Failure

/-- Why a replay goes no further. -/
inductive Halt where
  | failed (failure : Failure)
  /-- The user interrupts. -/
  | interrupted
  /-- What is waited for never comes, and the time never runs out. -/
  | endless
  deriving Repr

end Screencast
