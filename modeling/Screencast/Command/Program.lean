import Screencast.Terminal.Stream

/-!
# Listening to a command

A started command writes to two pipes, which are read in turns.  Each read is fed to the stream of
its pipe, and the text that comes out, unless there is none, is one piece of output.

`hear` works on any sequence of reads; `Program.reads` is the sequence for pipes that are always
ready.
-/

namespace Screencast

/-- The pipes of a command. -/
inductive Pipe where
  | output
  | errors
  deriving DecidableEq, Repr

/-- A stream for each pipe. -/
structure Listener where
  output : Terminal.Stream
  errors : Terminal.Stream
  deriving Repr

namespace Listener

def initial : Listener := ⟨.initial, .initial⟩

def stream (listener : Listener) : Pipe → Terminal.Stream
  | .output => listener.output
  | .errors => listener.errors

def setStream (listener : Listener) (stream : Terminal.Stream) : Pipe → Listener
  | .output => { listener with output := stream }
  | .errors => { listener with errors := stream }

/-- The pieces of text that reads give, with their pipes, up to the first failure.  A read that
fails gives no text. -/
def hear (listener : Listener) :
    List (Pipe × List Nat) → List (Pipe × List Char) × Option Terminal.Fault
  | [] => ([], none)
  | (pipe, bytes) :: rest =>
    let reading := (listener.stream pipe).feed bytes
    match reading.fault with
    | some fault => ([], some fault)
    | none =>
      let (pieces, fault) := (listener.setStream reading.stream pipe).hear rest
      (if reading.text.isEmpty then pieces else (pipe, reading.text) :: pieces, fault)

end Listener

/-- What a started command does: the bytes it writes, its exit status, negative for a signal, and
whether it still runs when its output ends. -/
structure Program where
  output : List Nat
  errors : List Nat
  status : Int
  running : Bool
  deriving Repr, Inhabited

/-- What is heard of a command: the pieces of its output, a failure to read it, and whether the
command was killed because it still ran when the listening ended. -/
structure Hearing where
  texts : List (List Char)
  fault : Option Terminal.Fault
  killed : Bool
  deriving Repr, Inhabited

namespace Program

/-- Cuts bytes into reads of one byte and up to `more` others. -/
def cutAfter (more : Nat) : List Nat → List (List Nat)
  | [] => []
  | byte :: rest => (byte :: rest.take more) :: cutAfter more (rest.drop more)
termination_by bytes => bytes.length
decreasing_by
  simp only [List.length_drop, List.length_cons]
  omega

/-- Cuts bytes into reads of at most the given size; reads of no bytes end the reading at once. -/
def cut : Nat → List Nat → List (List Nat)
  | 0, _ => []
  | more + 1, bytes => cutAfter more bytes

/-- The reads of two pipes in turns; when one pipe has ended the other goes on alone. -/
def inTurns : List (List Nat) → List (List Nat) → List (Pipe × List Nat)
  | [], errors => errors.map (.errors, ·)
  | output, [] => output.map (.output, ·)
  | read :: output, other :: errors => (.output, read) :: (.errors, other) :: inTurns output errors

/-- The reads of a command's pipes. -/
def reads (program : Program) (size : Nat) : List (Pipe × List Nat) :=
  inTurns (cut size program.output) (cut size program.errors)

/-- Listens to the end of both pipes. -/
def hear (program : Program) (size : Nat) : Hearing :=
  let (pieces, fault) := Listener.initial.hear (program.reads size)
  ⟨pieces.map Prod.snd, fault, program.running⟩

/-- Listens until a number of pieces has been heard; without a piece there is no listening. -/
def hearSome (program : Program) (size limit : Nat) : Hearing :=
  let all := program.hear size
  if limit = 0 then ⟨[], none, false⟩
  else if limit ≤ all.texts.length then ⟨all.texts.take limit, none, program.running⟩
  else all

end Program

end Screencast
