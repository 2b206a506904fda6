import Screencast.Terminal.Screen
import Screencast.Text.Utf8

/-!
# Plain text from an output stream

A `Stream` reads what a command writes to one of its pipes.  `Stream.step` reads one character:
text, line feeds and tabs are given out, and escape sequences are consumed.  A sequence may stay
unfinished for any number of characters, so the stream keeps where it stands; one that fails leaves
the stream between two sequences.

`Stream.feed` reads bytes.  They are decoded as UTF-8 or, after a request of the command, one by
one; the request takes effect with the next read.
-/

namespace Screencast.Terminal

/-- Where a stream stands between two characters. -/
inductive State where
  /-- Between two sequences. -/
  | ground
  | escape
  /-- One character is to be skipped. -/
  | skip
  /-- The character to come chooses how bytes are decoded. -/
  | charset
  /-- Inside a control sequence: the finished parameters and the digits of the next one, each the
  latest first, and whether the sequence is marked private. -/
  | control (parameters : List Nat) (digits : List Char) (isPrivate : Bool)
  /-- After the introducer of a command for the operating system. -/
  | commandCode
  /-- Inside the text of such a command. -/
  | command
  /-- After an escape inside that text. -/
  | commandEscape
  deriving DecidableEq, Repr

/-- What has been read of a pipe. -/
structure Stream where
  state : State
  screen : Screen
  /-- Whether bytes are decoded as UTF-8. -/
  utf8 : Bool
  /-- The bytes of an unfinished character. -/
  decoder : Text.Utf8.State
  deriving DecidableEq, Repr

/-- What reading gives: the stream after it, the text given out, and a failure. -/
structure Reading where
  stream : Stream
  text : List Char
  fault : Option Fault
  deriving DecidableEq, Repr

def escape : Char := Char.ofNat 0x1b

/-- Introduces a control sequence in one character. -/
def controlIntroducer : Char := Char.ofNat 0x9b

/-- Introduces a command for the operating system in one character. -/
def commandIntroducer : Char := Char.ofNat 0x9d

/-- Ends such a command in one character. -/
def terminator : Char := Char.ofNat 0x9c

def bell : Char := Char.ofNat 7

/-- The control characters that act wherever they stand: bell, backspace, tab, the three kinds of
line feed, and carriage return. -/
def isMovement (c : Char) : Bool :=
  7 ≤ c.toNat && c.toNat ≤ 13

/-- The text that such a character stands for. -/
def movementText (c : Char) : List Char :=
  if c = '\t' then ['\t']
  else if 10 ≤ c.toNat && c.toNat ≤ 12 then ['\n']
  else []

/-- Control characters without any effect: null, both shifts, and delete. -/
def isIgnored (c : Char) : Bool :=
  c.toNat = 0 || c.toNat = 0x0e || c.toNat = 0x0f || c.toNat = 0x7f

/-- Characters that end a control sequence and are given out. -/
def isCancel (c : Char) : Bool :=
  c.toNat = 0x18 || c.toNat = 0x1a

/-- A parameter above this one counts as this one. -/
def greatestParameter : Nat := 9999

/-- The value of the digits of a parameter; no digits mean zero. -/
def parameter (digits : List Char) : Except Fault Nat :=
  let decimals := (digits.takeWhile fun c => (Text.decimalValue? c).isSome).length
  if Text.maxDigits < decimals then .error (.longNumeral decimals)
  else
    match Text.decimalNumber? digits with
    | some n => .ok (min n greatestParameter)
    | none => .error (.numeral digits)

namespace Stream

def initial : Stream := ⟨.ground, .initial, true, .start⟩

/-- Goes on in a state and gives out a text. -/
def goto (stream : Stream) (state : State) (text : List Char) : Reading :=
  ⟨{ stream with state }, text, none⟩

/-- Between two sequences. -/
def ground (stream : Stream) (c : Char) : Reading :=
  if c = escape then stream.goto .escape []
  else if c = controlIntroducer then stream.goto (.control [] [] false) []
  else if c = commandIntroducer then stream.goto .commandCode []
  else if isMovement c then stream.goto .ground (movementText c)
  else if isIgnored c then stream.goto .ground []
  else stream.goto .ground [c]

/-- After an escape. -/
def afterEscape (stream : Stream) (c : Char) : Reading :=
  match c with
  | '[' => stream.goto (.control [] [] false) []
  | ']' => stream.goto .commandCode []
  | '#' | '(' | ')' => stream.goto .skip []
  | '%' => stream.goto .charset []
  | 'E' => stream.goto .ground ['\n']
  | 'c' => { stream with screen := stream.screen.reset }.goto .ground []
  | '7' => { stream with screen := stream.screen.saveCursor }.goto .ground []
  | '8' => { stream with screen := stream.screen.restoreCursor }.goto .ground []
  | _ => stream.goto .ground []

/-- Chooses how the bytes to come are decoded.  Leaving UTF-8 forgets an unfinished character. -/
def selectCharset (stream : Stream) (c : Char) : Reading :=
  match c with
  | '@' => { stream with utf8 := false, decoder := .start }.goto .ground []
  | 'G' | '8' => { stream with utf8 := true }.goto .ground []
  | _ => stream.goto .ground []

/-- Ends a parameter with a character that is none of its digits, and with it the sequence unless
another parameter follows. -/
def finish (stream : Stream) (parameters : List Nat) (digits : List Char) (isPrivate : Bool)
    (c : Char) : Except Fault Stream := do
  let parameters := (← parameter digits.reverse) :: parameters
  if c = ';' then return { stream with state := .control parameters [] isPrivate }
  else
    match Function.ofFinal? c with
    | none => return { stream with state := .ground }
    | some function =>
      let screen ← stream.screen.apply function parameters.reverse isPrivate
      return { stream with state := .ground, screen }

/-- Inside a control sequence. -/
def inControl (stream : Stream) (parameters : List Nat) (digits : List Char) (isPrivate : Bool)
    (c : Char) : Reading :=
  if c = '?' then stream.goto (.control parameters digits true) []
  else if isMovement c then stream.goto (.control parameters digits isPrivate) (movementText c)
  else if c = ' ' ∨ c = '>' then stream.goto (.control parameters digits isPrivate) []
  else if isCancel c then stream.goto .ground [c]
  else if Text.isDigit c then stream.goto (.control parameters (c :: digits) isPrivate) []
  else if c = '$' then stream.goto .skip []
  else
    match stream.finish parameters digits isPrivate c with
    | .ok next => ⟨next, [], none⟩
    | .error fault => ⟨{ stream with state := .ground }, [], some fault⟩

/-- Reads one character. -/
def step (stream : Stream) (c : Char) : Reading :=
  match stream.state with
  | .ground => stream.ground c
  | .escape => stream.afterEscape c
  | .skip => stream.goto .ground []
  | .charset => stream.selectCharset c
  | .control parameters digits isPrivate => stream.inControl parameters digits isPrivate c
  | .commandCode => stream.goto (if c = 'R' ∨ c = 'P' then .ground else .command) []
  | .command =>
    if c = escape then stream.goto .commandEscape []
    else stream.goto (if c = terminator ∨ c = bell then .ground else .command) []
  | .commandEscape => stream.goto (if c = '\\' then .ground else .command) []

/-- Reads characters up to the first failure; what comes after it is lost. -/
def run (stream : Stream) : List Char → Reading
  | [] => ⟨stream, [], none⟩
  | c :: rest =>
    let now := stream.step c
    match now.fault with
    | some fault => ⟨now.stream, now.text, some fault⟩
    | none =>
      let later := now.stream.run rest
      ⟨later.stream, now.text ++ later.text, later.fault⟩

/-- The characters that bytes stand for, and the decoder after them. -/
def decode (stream : Stream) (bytes : List Nat) : Text.Utf8.State × List Char :=
  if stream.utf8 then Text.Utf8.run stream.decoder bytes
  else (stream.decoder, bytes.map Char.ofNat)

/-- Reads the bytes that one read of the pipe returned. -/
def feed (stream : Stream) (bytes : List Nat) : Reading :=
  let (decoder, text) := stream.decode bytes
  { stream with decoder }.run text

end Stream

end Screencast.Terminal
