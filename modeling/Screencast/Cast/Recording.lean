import Screencast.Cast.Record
import Screencast.Config.Basic
import Screencast.Frame.Run
import Screencast.Text.Encoding

/-!
# Frames as a terminal recording

Each run of frames is one event, which clears the terminal and shows the lines of the frame.  Its
time is that of the first frame of the run.
-/

namespace Screencast.Cast

/-- Clears the terminal and moves to its upper left corner. -/
def clearScreen : Text := "\x1b[2J\x1b[H"

/-- Decimal places of a time. -/
def timePlaces : Nat := 6

/-- The time of a frame in seconds. -/
def timeOf (config : Config) (index : Nat) : Binary64 :=
  (((Binary64.ofInt index).mul config.frameDuration).div (.ofInt 1000)).roundPlaces timePlaces

/-- What an event writes to show a frame. -/
def dataOf (frame : Frame) : Text := clearScreen ++ Text.joinWith "\r\n" frame

/-- The events of runs, the first of which begins at a frame. -/
def eventsFrom (config : Config) (index : Nat) : List Run → List CastRecord
  | [] => []
  | run :: rest =>
    .event (.real (timeOf config index)) "o" (dataOf run.frame) ::
      eventsFrom config (index + run.length) rest

/-- The header of a recording. -/
def headerOf (config : Config) : Except CastError CastRecord :=
  CastRecord.ofHeader (.int CastRecord.version) (.int config.columns) (.int config.lineCount)
    config.title

/-- The records of a recording. -/
def records (config : Config) (frames : List Frame) : Except CastError (List CastRecord) := do
  return (← headerOf config) :: eventsFrom config 0 (Frame.runs frames)

/-- The text of the file of a recording, up to the first record that cannot be encoded. -/
def textOf : List CastRecord → List Char × Option EncodingFault
  | [] => ([], none)
  | record :: rest =>
    match record.line.encode with
    | .error fault => ([], some fault)
    | .ok line =>
      let (text, fault) := textOf rest
      (line ++ '\n' :: text, fault)

end Screencast.Cast
