import Screencast.Number.Twister
import Screencast.Replay.Cue
import Screencast.Step.Record

/-!
# Performing a replay

A `Stage` is where cues are performed: it holds the session, the frames recorded so far, the source
of the typing rhythm, and a journal of everything that can be observed, in order.  An action on the
stage always gives a stage, and a `Halt` if it came to one.

`Stage.run` performs the records of a script one after the other.  An error ends the replay, but it
is shown on the terminal and recorded.
-/

namespace Screencast

/-- Something that can be observed of a replay. -/
inductive Event where
  /-- The preview shows a frame. -/
  | shown (frame : Frame)
  /-- A frame of a buffer is recorded. -/
  | recorded (buffer : Text)
  /-- The replay pauses for some seconds. -/
  | slept (seconds : Binary64)
  | logged (entry : LogEntry)
  deriving Repr

/-- Whether a replay takes its time. -/
inductive Pacing where
  /-- It does not pause. -/
  | immediate
  /-- It pauses; the user interrupts the pauses that begin after certain numbers of events. -/
  | realTime (interrupts : Nat → Bool)

/-- What a replay depends on besides its script. -/
structure Setting where
  config : Config
  commands : Commands
  pacing : Pacing
  /-- What showing a frame on the preview fails with, if it does. -/
  preview : Frame → Option Failure
  /-- The source of the typing rhythm that the system gives when no seed is configured; it may be
  another one each time. -/
  entropy : Twister

/-- The source of the typing rhythm. -/
def Setting.rhythm (setting : Setting) : Twister :=
  match setting.config.seed? with
  | some seed => .ofSeed seed
  | none => setting.entropy

/-- The state of a replay. -/
structure Stage where
  session : Session
  frames : Array Frame
  rhythm : Twister
  journal : Array Event
  deriving Inhabited, Repr

namespace Config

/-- The number of frames in some milliseconds. -/
def frameCount (config : Config) (duration : Number) : Except ArithmeticError Int := do
  let product ← duration.mul config.fps
  (← product.div (.int 1000)).floor

/-- Deleting is so many times faster than typing. -/
def deletionSpeed : Nat := 3

/-- The milliseconds that a key takes: between the typing speed and its double, by chance; less for
deleting. -/
def keyDelay (config : Config) (key : Key) (chance : Binary64) :
    Except ArithmeticError Binary64 := do
  let least ← (Number.int config.typingSpeed).toReal
  let delay := least.add (least.mul chance)
  return match key with
    | .typed => delay
    | .deleted => delay.div (.ofInt deletionSpeed)

end Config

namespace Stage

/-- The stage before a replay. -/
def initial (rhythm : Twister) : Stage := ⟨.empty, #[], rhythm, #[]⟩

def note (event : Event) (stage : Stage) : Stage :=
  { stage with journal := stage.journal.push event }

def log (source : String) (level : Level) (message : Text) (stage : Stage) : Stage :=
  stage.note (.logged ⟨source, level, message⟩)

/-- Shows the view of the buffer on the preview. -/
def showView (setting : Setting) (views : Frame.Views) (stage : Stage) : Stage × Option Halt :=
  match views.at setting.config stage.frames.size with
  | .ok frame =>
    match setting.preview frame with
    | none => (stage.note (.shown frame), none)
    | some failure => (stage, some (.failed failure))
  | .error error => (stage, some (.failed (.projection error)))

/-- Records the view of the buffer as one frame. -/
def recordView (config : Config) (views : Frame.Views) (stage : Stage) : Stage × Option Halt :=
  match views.at config stage.frames.size with
  | .ok frame =>
    ({ stage with
        frames := stage.frames.push frame
        journal := stage.journal.push (.recorded stage.session.buffer) }, none)
  | .error error => (stage, some (.failed (.projection error)))

/-- Records the view of the buffer as a number of frames. -/
def recordViews (config : Config) (views : Frame.Views) : Nat → Stage → Stage × Option Halt
  | 0, stage => (stage, none)
  | count + 1, stage =>
    match stage.recordView config views with
    | (stage, none) => recordViews config views count stage
    | halted => halted

/-- Shows the session on the preview. -/
def refresh (setting : Setting) (stage : Stage) : Stage × Option Halt :=
  stage.showView setting (Frame.views setting.config stage.session.buffer)

/-- Records the session as one frame. -/
def record (config : Config) (stage : Stage) : Stage × Option Halt :=
  stage.recordView config (Frame.views config stage.session.buffer)

/-- Pauses for some milliseconds, if they are more than none. -/
def pause (pacing : Pacing) (duration : Number) (stage : Stage) : Stage × Option Halt :=
  match pacing with
  | .immediate => (stage, none)
  | .realTime interrupts =>
    if duration.isPositive then
      match duration.div (.int 1000) with
      | .ok seconds =>
        let halt := if interrupts stage.journal.size then some .interrupted else none
        (stage.note (.slept seconds), halt)
      | .error error => (stage, some (.failed (.arithmetic error)))
    else (stage, none)

/-- Records the frames of some milliseconds, then pauses for as long. -/
def elapseViews (config : Config) (pacing : Pacing) (views : Frame.Views) (duration : Number)
    (stage : Stage) : Stage × Except Halt Int :=
  match config.frameCount duration with
  | .error error => (stage, .error (.failed (.arithmetic error)))
  | .ok count =>
    match stage.recordViews config views count.toNat with
    | (stage, some halt) => (stage, .error halt)
    | (stage, none) =>
      match stage.pause pacing duration with
      | (stage, some halt) => (stage, .error halt)
      | (stage, none) => (stage, .ok count)

/-- Lets some milliseconds of recorded time pass, without showing anything; gives the number of
frames. -/
def elapse (config : Config) (pacing : Pacing) (duration : Number) (stage : Stage) :
    Stage × Except Halt Int :=
  stage.elapseViews config pacing (Frame.views config stage.session.buffer) duration

/-- Shows the session and lets some milliseconds pass; gives the number of frames. -/
def advance (setting : Setting) (duration : Number) (stage : Stage) : Stage × Except Halt Int :=
  let views := Frame.views setting.config stage.session.buffer
  match stage.showView setting views with
  | (stage, some halt) => (stage, .error halt)
  | (stage, none) => stage.elapseViews setting.config setting.pacing views duration

/-- Shows the session and lets a time pass that is given by a value. -/
def advanceValue (setting : Setting) (duration : Json) (stage : Stage) :
    Stage × Except Halt Int :=
  match duration.quantity? with
  | some duration => stage.advance setting duration
  | none =>
    match stage.refresh setting with
    | (stage, some halt) => (stage, .error halt)
    | (stage, none) => (stage, .error (.failed (.duration duration.kindName)))

/-- The halt of an action that otherwise gives a value. -/
def haltOf {α : Type} : Stage × Except Halt α → Stage × Option Halt
  | (stage, .ok _) => (stage, none)
  | (stage, .error halt) => (stage, some halt)

/-- Shows the session and records it as one frame. -/
def flash (setting : Setting) (stage : Stage) : Stage × Option Halt :=
  let views := Frame.views setting.config stage.session.buffer
  match stage.showView setting views with
  | (stage, none) => stage.recordView setting.config views
  | halted => halted

/-- Performs a cue. -/
def perform (setting : Setting) (cue : Cue) (stage : Stage) : Stage × Option Halt :=
  match cue with
  | .key key session =>
    let (chance, rhythm) := stage.rhythm.next
    let stage := { stage with session, rhythm }
    match setting.config.keyDelay key chance with
    | .error error => (stage, some (.failed (.arithmetic error)))
    | .ok delay => haltOf (stage.advance setting (.real delay))
  | .hold duration session =>
    haltOf ({ stage with session }.advance setting (.int duration))
  | .flash session => { stage with session }.flash setting
  | .turn session => ({ stage with session }, none)
  | .log entry => (stage.note (.logged entry), none)
  | .halt reason => (stage, some reason)

/-- Performs cues up to the first halt. -/
def performAll (setting : Setting) : List Cue → Stage → Stage × Option Halt
  | [], stage => (stage, none)
  | cue :: rest, stage =>
    match stage.perform setting cue with
    | (stage, none) => performAll setting rest stage
    | halted => halted

/-- Performs a step. -/
def execute (setting : Setting) (step : Step) (stage : Stage) : Stage × Option Halt :=
  stage.performAll setting (step.cues setting.commands stage.session)

/-- Deletes a number of characters that is given by a value. -/
def deleteValue (setting : Setting) (count : Json) (stage : Stage) : Stage × Option Halt :=
  match count with
  | .int n =>
    if n < 0 then (stage, some (.failed (.deletion count)))
    else stage.performAll setting (stage.session.deleting n.toNat)
  | _ => (stage, some (.failed (.deletion count)))

/-- Performs the step of a record. -/
def executeRecord (setting : Setting) (record : Json) (stage : Stage) : Stage × Option Halt :=
  match Step.ofRecord record with
  | .ok step => stage.execute setting step
  | .error error => (stage, some (.failed (.step error)))

/-- Shows an error on the terminal and records it. -/
def abort (setting : Setting) (message : Text) (stage : Stage) : Stage × Option Halt :=
  let stage := stage.log "termreplay.replay" .error ("ERROR: " ++ message)
  let session := stage.session.emit ("\nERROR: " ++ message)
  { stage with session }.flash setting

end Stage

/-- How a replay ends. -/
inductive Outcome where
  | success
  | failure
  /-- The error cannot be shown. -/
  | escaped (halt : Halt)
  | endless
  deriving Repr

namespace Outcome

/-- The exit code of a replay that ends. -/
def exitCode? : Outcome → Option Nat
  | .success => some 0
  | .failure => some 1
  | .escaped _ | .endless => none

end Outcome

namespace Stage

/-- Ends a replay that came to a halt. -/
def conclude (setting : Setting) (stage : Stage) : Halt → Stage × Outcome
  | .interrupted => (stage.log "termreplay.replay" .info "Replay interrupted", .success)
  | .endless => (stage, .endless)
  | .failed failure =>
    match stage.abort setting failure.text with
    | (stage, none) => (stage, .failure)
    | (stage, some halt) => (stage, .escaped halt)

/-- Performs the records of a script. -/
def run (setting : Setting) : List Json → Stage → Stage × Outcome
  | [], stage => (stage, .success)
  | record :: rest, stage =>
    match stage.executeRecord setting record with
    | (stage, none) => run setting rest stage
    | (stage, some halt) => stage.conclude setting halt

/-- Performs the items of a value as records. -/
def runValue (setting : Setting) (value : Json) (stage : Stage) : Stage × Outcome :=
  match value.elements? with
  | some records => stage.run setting records
  | none => stage.conclude setting (.failed (.records value.kindName))

end Stage

end Screencast
