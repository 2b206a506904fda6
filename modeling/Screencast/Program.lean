import Screencast.CommandLine.Help
import Screencast.CommandLine.Request
import Screencast.Config.Build
import Screencast.Config.File
import Screencast.Preview
import Screencast.Recording
import Screencast.Step.Script

/-!
# The whole program

`Execution.ofArguments` runs the program on a command line.  Nothing happens in the course of it:
what the user would see is a list of effects in their order, to be performed afterwards.
-/

namespace Screencast

open CommandLine (Request Choices)

/-- What the program finds around it. -/
structure Surroundings where
  disk : Disk
  /-- The path of the file to write, for command lines that name none. -/
  outputPath : Option (List Char)
  commands : Commands
  tools : Tools
  /-- The pauses that the user interrupts. -/
  interrupts : Nat → Bool
  /-- The time as a log file tells it at the beginning of each line. -/
  time : List Char
  /-- The source of the typing rhythm for configurations without a seed. -/
  entropy : Twister

/-- Something the program does that can be seen from outside. -/
inductive Effect where
  /-- A text for the screen. -/
  | show (text : List Char)
  /-- A text about the work, beside the screen. -/
  | tell (text : Text)
  /-- An entry for the log file. -/
  | record (entry : LogEntry)
  | pause (seconds : Binary64)
  deriving Repr

/-- An error that ends the program. -/
inductive Breakdown where
  /-- A double dash is given as the path of the configuration file. -/
  | noConfigPath
  | configPath (error : DiskError)
  | script (error : ScriptError)
  | recording (failure : RecordingFailure)

/-- A file for the log: its path, and the time as its lines tell it. -/
structure LogFile where
  path : List Char
  time : List Char

/-- A run of the program. -/
structure Execution where
  effects : List Effect
  shop : Workshop
  logFile : Option LogFile
  /-- The commands that were started. -/
  commands : List Text
  /-- The exit code. -/
  result : Except Breakdown Nat

/-- The options that the switches set. -/
def CommandLine.Choices.options (choices : Choices) : List (Text × Json) :=
  let all : List (Text × Option Json) :=
    [("renderer", choices.renderer.option? fun renderer => .string renderer.extension),
     ("fps", choices.frameRate.option? fun (n : Nat) => .int n),
     ("line_count", choices.lineCount.option? fun (n : Nat) => .int n),
     ("seed", choices.seed.option? .int),
     ("line_numbers", if choices.lineNumbers then some (.bool true) else none)]
  all.filterMap fun (name, value) => value.map (name, ·)

/-- The path to write to: the one that is asked for or else the one of the surroundings; an empty
one stands for a name that no other file has. -/
def resolvePath (asked surrounding : Option (List Char)) (renderer : Renderer) (disk : Disk) :
    List Char × Disk :=
  let path := (asked.or surrounding).getD []
  let (path, disk) :=
    if path.isEmpty then
      disk.createUnnamed "termreplay_".toList ('.' :: renderer.extension.toList)
    else (path, disk)
  (Path.absolute disk.currentPath path, disk)

/-- Why a program has nothing to record. -/
inductive Obstacle where
  /-- The user is told of it. -/
  | reported (message : Text)
  | breakdown (breakdown : Breakdown)

/-- The options of the configuration file, then those of the switches. -/
def requestedOptions (disk : Disk) (choices : Choices) :
    Except Obstacle (List (Text × Json)) := do
  let fromFile ←
    match choices.config with
    | .nothing => pure []
    | .dash => .error (.breakdown .noConfigPath)
    | .value path =>
      (Config.fileOptions disk path).mapError fun
        | .config error => .reported error.message
        | .impossiblePath error => .breakdown (.configPath error)
  return choices.options.foldl (fun options option => Json.put option.1 option.2 options) fromFile

/-- The configuration and the records that are asked for. -/
def prepare (disk : Disk) (request : Request) : Except Obstacle (Config × List Json) := do
  let options ← requestedOptions disk request.choices
  let config ← (Config.build options).mapError fun error => .reported error.message
  let records ← (readScript disk request.script).mapError fun error =>
    match error with
    | .unreadable _ _ | .notAList _ => .reported error.message
    | .limit _ | .impossiblePath _ => .breakdown (.script error)
  return (config, records)

/-- The effects of an entry: all but the details are told, and a log file holds everything. -/
def LogEntry.effects (verbose : Bool) (entry : LogEntry) : List Effect :=
  (if entry.level = .debug then [] else [.tell (entry.message ++ "\n")]) ++
    if verbose then [.record entry] else []

/-- The effects of an event; without a box nothing is shown. -/
def Event.effects (verbose : Bool) (box : Option Box) : Event → List Effect
  | .shown frame =>
    match box with
    | some box => [.show (box.draw (Text.joinLines frame)).chars]
    | none => []
  | .recorded _ => []
  | .slept seconds => [.pause seconds]
  | .logged entry => entry.effects verbose

namespace LogFile

/-- The text of a log file after some effects; entries that cannot be encoded are left out. -/
def textOf (file : LogFile) (effects : List Effect) : List Char :=
  effects.flatMap fun
    | .record entry => (entry.line file.time).encode.toOption.getD []
    | _ => []

/-- Writes a log file after some effects. -/
def write (file : LogFile) (effects : List Effect) (disk : Disk) : Disk :=
  (disk.write file.path (.text (file.textOf effects))).toOption.getD disk

end LogFile

namespace Execution

/-- All that is written to the screen. -/
def screen (execution : Execution) : List Char :=
  execution.effects.flatMap fun
    | .show text => text
    | _ => []

/-- All that is told beside the screen. -/
def told (execution : Execution) : List Char :=
  execution.effects.flatMap fun
    | .tell text => text.escaped
    | _ => []

/-- The pauses in seconds. -/
def pauses (execution : Execution) : List Binary64 :=
  execution.effects.filterMap fun
    | .pause seconds => some seconds
    | _ => none

/-- The disk at the end, the log file included. -/
def disk (execution : Execution) : Disk :=
  match execution.logFile with
  | none => execution.shop.disk
  | some file => file.write execution.effects execution.shop.disk

/-- A run that only tells something. -/
def ofText (effect : Effect) (exitCode : Nat) (disk : Disk) : Execution :=
  ⟨[effect], .ofDisk disk, none, [], .ok exitCode⟩

/-- The preview in a box, or none, which never fails. -/
def previewOf (box : Option Box) : Frame → Option Failure :=
  match box with
  | none => fun _ => none
  | some box =>
    match box.check with
    | .error fault => fun _ => some (.preview fault)
    | .ok () => fun frame =>
      match (box.draw (Text.joinLines frame)).encode with
      | .error fault => some (.encoding fault)
      | .ok _ => none

/-- Records what is asked for. -/
def record (surroundings : Surroundings) (request : Request) (config : Config)
    (records : List Json) (disk : Disk) : Recording × Option Box :=
  let (path, disk) :=
    resolvePath request.outputPath surroundings.outputPath config.renderer disk
  let headless := request.choices.headless
  let pacing : Pacing := if headless then .immediate else .realTime surroundings.interrupts
  let box : Option Box := if headless then none else some ⟨config.columns, config.title⟩
  let setting : Setting :=
    ⟨config, surroundings.commands, pacing, previewOf box, surroundings.entropy⟩
  (Recording.ofScript setting surroundings.tools path records disk, box)

/-- Opens a log file if there is to be one.  Its first line is there before anything is read. -/
def openLog (surroundings : Surroundings) (verbose : Bool) :
    List Effect × Option LogFile × Disk :=
  if verbose then
    let (path, disk) := surroundings.disk.createUnnamed "termreplay_".toList ".log".toList
    let file : LogFile := ⟨path, surroundings.time⟩
    let effects :=
      LogEntry.effects true ⟨"termreplay", .info, s!"Logging to {String.ofList path}"⟩
    (effects, some file, file.write effects disk)
  else ([], none, surroundings.disk)

/-- Carries out a request. -/
def ofRequest (surroundings : Surroundings) (request : Request) : Execution :=
  let verbose := request.choices.verbose
  let (opening, logFile, disk) := openLog surroundings verbose
  match prepare disk request with
  | .error (.reported message) =>
    ⟨opening ++ LogEntry.effects verbose ⟨"termreplay", .error, message⟩, .ofDisk disk, logFile, [],
      .ok 1⟩
  | .error (.breakdown breakdown) =>
    ⟨opening, .ofDisk disk, logFile, [], .error breakdown⟩
  | .ok (config, records) =>
    let (recording, box) := record surroundings request config records disk
    ⟨opening ++ recording.stage.journal.toList.flatMap (Event.effects verbose box), recording.shop,
      logFile, recording.stage.session.commands,
      (recording.result.map Prod.fst).mapError .recording⟩

/-- Runs the program on a command line. -/
def ofArguments (surroundings : Surroundings) (arguments : List (List Char)) : Execution :=
  match Request.ofArguments arguments with
  | .error .help => ofText (.show CommandLine.helpText.toList) 0 surroundings.disk
  | .error (.misuse misuse) =>
    ofText (.tell (CommandLine.complaint misuse)) 2 surroundings.disk
  | .ok request => ofRequest surroundings request

end Execution

end Screencast
