import Screencast.Render.Select
import Screencast.Replay.Stage

/-!
# From a script to a file

`record` replays the records of a script, holds the last frame, and renders the frames.  A replay
that fails is rendered all the same, so that the result shows what went wrong.
-/

namespace Screencast

/-- Why a recording ends the program. -/
inductive RecordingFailure where
  | replay (halt : Halt)
  | rendering (failure : RenderFailure)
  deriving Repr

/-- What a recording leaves: the stage, with everything told in its journal, the workshop, and the
exit code with the path of the file, if there is one. -/
structure Recording where
  stage : Stage
  shop : Workshop
  result : Except RecordingFailure (Nat × Option (List Char))

namespace Recording

/-- Tells what was told in a workshop. -/
def noteAll (entries : List LogEntry) (stage : Stage) : Stage :=
  entries.foldl (fun stage entry => stage.note (.logged entry)) stage

/-- Renders the frames of a stage after a replay with an exit code. -/
def finish (tools : Tools) (config : Config) (path : List Char) (exitCode : Nat) (stage : Stage)
    (shop : Workshop) : Recording :=
  let frames := stage.frames.toList
  let (shop, rendered) := (Target.choose path config.renderer).render tools config frames shop
  let stage := noteAll shop.log stage
  match rendered with
  | .error (.reported error) =>
    ⟨stage.log "termreplay.replay" .error ("Rendering failed: " ++ error.message), shop,
      .ok (1, none)⟩
  | .error failure => ⟨stage, shop, .error (.rendering failure)⟩
  | .ok file =>
    let message := s!"Recording saved as '{String.ofList file}' ({frames.length} frames)"
    ⟨stage.log "termreplay.replay" .info message, shop, .ok (exitCode, some file)⟩

/-- The stage at the beginning of a recording. -/
def opening (setting : Setting) : Stage :=
  (Stage.initial setting.rhythm).log "termreplay.replay" .info "Replay started"

/-- Holds the last frame of a replay, however it ended, and renders the frames to a path. -/
def conclude (setting : Setting) (tools : Tools) (path : List Char) (disk : Disk)
    (replayed : Stage × Outcome) : Recording :=
  let shop := Workshop.ofDisk disk
  let (stage, outcome) := replayed
  let finalize (exitCode : Nat) : Recording :=
    match stage.elapse setting.config .immediate (.int setting.config.endDelay) with
    | (stage, .error halt) => ⟨stage, shop, .error (.replay halt)⟩
    | (stage, .ok _) => finish tools setting.config path exitCode stage shop
  match outcome with
  | .success => finalize 0
  | .failure => finalize 1
  | .escaped halt => ⟨stage, shop, .error (.replay halt)⟩
  | .endless => ⟨stage, shop, .error (.replay .endless)⟩

/-- Replays the records of a script and renders the frames to a path. -/
def ofScript (setting : Setting) (tools : Tools) (path : List Char) (records : List Json)
    (disk : Disk) : Recording :=
  conclude setting tools path disk ((opening setting).run setting records)

/-- Replays the items of a value; one without items is an error that is shown like any other. -/
def ofValue (setting : Setting) (tools : Tools) (path : List Char) (records : Json)
    (disk : Disk) : Recording :=
  conclude setting tools path disk ((opening setting).runValue setting records)

end Recording

end Screencast
