import Screencast.Log
import Screencast.Replay.Failure
import Screencast.Session

/-!
# Cue sheets

What happens on the terminal does not depend on how it is recorded.  `Step.cues` lists, for a step
and a session, the moments that the step consists of: each `Cue` carries the session at that moment
and says how long it is held.  Only the behaviour of the commands is needed for it; frame rate,
typing rhythm and size of the screen come in when the cues are performed.
-/

namespace Screencast

/-- How the output of a started command ends. -/
inductive Ending where
  /-- With the exit of the command; a negative status stands for a signal. -/
  | exited (status : Int)
  /-- Without anything to tell. -/
  | quiet
  | halted (halt : Halt)
  deriving Repr

/-- What comes of starting a command. -/
inductive Launch where
  | refused (halt : Halt)
  /-- The pieces of its output and how it ends. -/
  | started (texts : List Text) (ending : Ending)
  deriving Repr

/-- What each command does, which may depend on the commands started before it. -/
abbrev Commands := (before : List Text) → (command : Text) → Launch

namespace Launch

/-- Number of bytes that one read of a pipe returns at most. -/
def readSize : Nat := 1024

/-- A command that runs a program. -/
def ofProgram (program : Program) : Launch :=
  let hearing := program.hear readSize
  .started (hearing.texts.map Text.ofChars) <|
    match hearing.fault with
    | some fault => .halted (.failed (.output fault))
    | none => .exited program.status

end Launch

/-- What a key does, which decides how long it takes. -/
inductive Key where
  | typed
  | deleted
  deriving DecidableEq, Repr

/-- A moment of a replay. -/
inductive Cue where
  /-- The session is shown for as long as a key takes. -/
  | key (key : Key) (session : Session)
  /-- The session is shown for some milliseconds. -/
  | hold (duration : Nat) (session : Session)
  /-- The session is shown for one frame. -/
  | flash (session : Session)
  /-- The session changes unseen. -/
  | turn (session : Session)
  | log (entry : LogEntry)
  | halt (reason : Halt)
  deriving Repr

namespace Session

/-- The pause after an action in milliseconds. -/
def actionPause : Nat := 1000

/-- The time between two looks at the screen while waiting, in milliseconds. -/
def pollInterval : Nat := 1000

/-- The word that is typed for clearing the terminal. -/
def clearWord : Text := "clear"

/-- Types code point by code point. -/
def typing (session : Session) : Text → List Cue
  | [] => []
  | c :: rest =>
    let next := session.type [c]
    .key .typed next :: next.typing rest

/-- Deletes code point by code point, as long as there are any. -/
def deleting (session : Session) : Nat → List Cue
  | 0 => []
  | count + 1 =>
    if session.deletable 1 = 0 then []
    else
      let next := session.delete 1
      .key .deleted next :: next.deleting count

/-- Shows pieces of output one after the other. -/
def receiving (session : Session) : List Text → List Cue
  | [] => []
  | text :: rest =>
    let next := session.emit text
    .flash next :: next.receiving rest

/-- The session after pieces of output. -/
def received (session : Session) (texts : List Text) : Session :=
  texts.foldl (fun session text => session.emit text) session

/-- Ends the output of a command. -/
def ending (session : Session) (command : Text) : Ending → List Cue
  | .halted halt => [.halt halt]
  | .quiet => [.hold actionPause (session.emit "\n")]
  | .exited status =>
    if status < 0 then [.halt (.failed (.command (.terminated command status.natAbs)))]
    else
      let note : LogEntry := ⟨"termreplay.term", .debug,
        "Command \"" ++ command ++ s!"\" exited with status {status}"⟩
      (if status = 0 then [] else [.log note]) ++ [.hold actionPause (session.emit "\n")]

/-- Runs a command. -/
def running (commands : Commands) (session : Session) (command : Text) : List Cue :=
  let note : LogEntry := ⟨"termreplay.replay", .debug,
    "Running command \"" ++ command ++ "\""⟩
  let started := session.start command
  .log note :: .turn started ::
    match commands session.commands command with
    | .refused halt => [.halt halt]
    | .started texts ending =>
      started.receiving texts ++ (started.received texts).ending command ending

/-- Presses return. -/
def entering (commands : Commands) (session : Session) : List Cue :=
  let (command, next) := session.submit
  .hold actionPause next :: if command.isEmpty then [] else running commands next command

/-- Pastes the clipboard. -/
def pasting (session : Session) : List Cue :=
  [.hold actionPause (session.type session.clipboard)]

/-- Types the word for clearing and clears. -/
def clearing (session : Session) : List Cue :=
  session.typing clearWord ++ [.hold actionPause (session.type clearWord).clear]

/-- Waits for a text. -/
def waiting (session : Session) (text : Text) (timeout : Number) : List Cue :=
  if Text.occursIn text session.buffer then []
  else
    match timeout.stepsToReach pollInterval with
    | none => [.hold pollInterval session, .halt .endless]
    | some polls =>
      List.replicate polls (.hold pollInterval session) ++ [.halt (.failed (.timeout text))]

end Session

/-- The moments of a step. -/
def Step.cues (commands : Commands) (session : Session) : Step → List Cue
  | .typeText text => session.typing text
  | .delete count => session.deleting count
  | .enter => session.entering commands
  | .paste => session.pasting
  | .copy span => [.turn (session.copy span)]
  | .clear => session.clearing
  | .waitFor text timeout => session.waiting text timeout

end Screencast
