import Screencast.CommandLine.Token
import Screencast.Config.Basic
import Screencast.Text.Numeral

/-!
# What the user asks for

`Request.ofArguments` reads a command line.  The words name the script and the file to write; both
have to stand side by side, since the first word that is followed by something else is the script
alone.  A switch that takes a value takes the next word, and letters of switches without values may
follow one another after one dash.
-/

namespace Screencast.CommandLine

/-- What a switch that takes a value is given. -/
inductive Given (α : Type) where
  | nothing
  /-- A double dash, which stands for no value, whatever the kind of value. -/
  | dash
  | value (value : α)
  deriving DecidableEq, Repr

namespace Given

/-- What is given as a value of an option: an empty array stands for the double dash. -/
def option? {α : Type} (toJson : α → Json) : Given α → Option Json
  | .nothing => none
  | .dash => some (.array [])
  | .value a => some (toJson a)

/-- The value, if one is given. -/
def value? {α : Type} : Given α → Option α
  | .value a => some a
  | .nothing | .dash => none

end Given

/-- What the switches choose. -/
structure Choices where
  config : Given (List Char)
  renderer : Given Renderer
  frameRate : Given Nat
  lineCount : Given Nat
  seed : Given Int
  lineNumbers : Bool
  headless : Bool
  verbose : Bool
  deriving DecidableEq, Repr

/-- What the user asks for. -/
structure Request where
  script : List Char
  outputPath : Option (List Char)
  choices : Choices
  deriving DecidableEq, Repr

/-- Why a command line makes no request. -/
inductive Refusal where
  /-- The user only wants to read the help text. -/
  | help
  | misuse (misuse : Misuse)
  deriving Repr

namespace Choices

/-- The choices without any switch. -/
def initial : Choices :=
  ⟨.nothing, .nothing, .nothing, .nothing, .nothing, false, false, false⟩

/-- A number of digits only that is not zero. -/
def positive? (value : List Char) : Option Nat :=
  match Text.integer? value with
  | some (.ofNat n) => if value.all Text.isDigit && 1 ≤ n then some n else none
  | _ => none

def positiveOf (switch : Switch) (value : List Char) : Except Refusal Nat :=
  match positive? value with
  | some n => .ok n
  | none => .error (.misuse (.badValue switch "positive_integer" value))

/-- Turns on a switch that takes no value. -/
def turnOn (choices : Choices) : Switch → Except Refusal Choices
  | .help => .error .help
  | .lineNumbers => .ok { choices with lineNumbers := true }
  | .headless => .ok { choices with headless := true }
  | .verbose => .ok { choices with verbose := true }
  | switch => .error (.misuse (.noValue switch))

/-- Gives a switch a double dash. -/
def giveDash (choices : Choices) (switch : Switch) : Except Refusal Choices :=
  match switch with
  | .config => .ok { choices with config := .dash }
  | .renderer => .ok { choices with renderer := .dash }
  | .frameRate => .ok { choices with frameRate := .dash }
  | .lineCount => .ok { choices with lineCount := .dash }
  | .seed => .ok { choices with seed := .dash }
  | switch => .error (.misuse (.unwantedValue switch ['-', '-']))

/-- Gives a switch its value. -/
def giveValue (choices : Choices) (switch : Switch) (value : List Char) :
    Except Refusal Choices :=
  match switch with
  | .config => .ok { choices with config := .value value }
  | .renderer =>
    match Renderer.ofName? (String.ofList value) with
    | some renderer => .ok { choices with renderer := .value renderer }
    | none =>
      .error (.misuse (.badChoice switch value (Renderer.all.map Renderer.extension)))
  | .frameRate => do return { choices with frameRate := .value (← positiveOf switch value) }
  | .lineCount => do return { choices with lineCount := .value (← positiveOf switch value) }
  | .seed =>
    match Text.integer? value with
    | some n => .ok { choices with seed := .value n }
    | none => .error (.misuse (.badValue switch "integer" value))
  | switch => .error (.misuse (.unwantedValue switch value))

/-- Gives a switch what stands where its value belongs. -/
def give (choices : Choices) (switch : Switch) (text : List Char) : Except Refusal Choices :=
  if text = ['-', '-'] then choices.giveDash switch else choices.giveValue switch text

/-- Turns on switches one after the other. -/
def turnOnAll : List Switch → Choices → Except Refusal Choices
  | [], choices => .ok choices
  | switch :: rest, choices => do turnOnAll rest (← choices.turnOn switch)

end Choices

/-! ## One argument can turn on several switches -/

/-- What an argument ends with, after the switches that it turns on. -/
inductive Tail where
  | nothing
  /-- A switch with its value. -/
  | given (switch : Switch) (value : List Char)
  /-- A switch whose value is the next argument. -/
  | awaiting (switch : Switch)
  deriving Repr

namespace Tail

/-- A switch without anything attached. -/
def single (switch : Switch) : List Switch × Tail :=
  if switch.takesValue then ([], .awaiting switch) else ([switch], .nothing)

/-- The switches of one argument, for the first one and the text attached to it.  Only the letters
of switches may stand behind a switch without a value. -/
def ofLetters (switch : Switch) (text : List Char) : Except Misuse (List Switch × Tail) :=
  if switch.takesValue then .ok ([], .given switch text)
  else
    match text with
    | [] => .error (.unwantedValue switch [])
    | c :: more =>
      match Switch.ofName? ['-', c] with
      | none => .error (.unwantedValue switch (c :: more))
      | some next =>
        let others := if more.isEmpty then .ok (single next) else ofLetters next more
        others.map fun (switches, tail) => (switch :: switches, tail)

/-- The switches of one argument, for the switch it names and the text attached to the name. -/
def ofSwitch (form : Form) (switch : Switch) :
    Option (List Char) → Except Misuse (List Switch × Tail)
  | none => .ok (single switch)
  | some text =>
    match form with
    | .letter => ofLetters switch text
    | .word =>
      if switch.takesValue then .ok ([], .given switch text)
      else .error (.unwantedValue switch text)

end Tail

/-! ## Words find their places -/

/-- Where the next word belongs. -/
inductive Slot where
  | script
  | outputPath
  /-- Nowhere, but the mark may still stand here. -/
  | afterBoth
  | nowhere
  deriving DecidableEq, Repr

/-- A request while its command line is read. -/
structure Draft where
  script : Option (List Char)
  outputPath : Option (List Char)
  next : Slot
  choices : Choices
  /-- Arguments without a meaning, the last one first. -/
  surplus : List (List Char)
  deriving Repr

namespace Draft

def empty : Draft := ⟨none, none, .script, .initial, []⟩

def leave (argument : List Char) (draft : Draft) : Draft :=
  { draft with surplus := argument :: draft.surplus }

/-- Puts a word in its place.  A double dash that is a word leaves the place of the file empty. -/
def putWord (text : List Char) (draft : Draft) : Draft :=
  match draft.next with
  | .script => { draft with script := some text, next := .outputPath }
  | .outputPath =>
    { draft with
      outputPath := if text = ['-', '-'] then none else some text
      next := .afterBoth }
  | .afterBoth | .nowhere => { draft with next := .nowhere }.leave text

/-- Passes the mark. -/
def putMark (draft : Draft) : Draft :=
  if draft.next = .nowhere then draft.leave ['-', '-'] else draft

/-- A switch stands behind the words so far: once there is a script, no word belongs anywhere. -/
def interrupt (draft : Draft) : Draft :=
  if draft.next = .script then draft else { draft with next := .nowhere }

/-- Turns on switches. -/
def turnOn (switches : List Switch) (draft : Draft) : Except Refusal Draft := do
  return { draft with choices := ← draft.choices.turnOnAll switches }

/-- Gives a switch its value. -/
def give (switch : Switch) (value : List Char) (draft : Draft) : Except Refusal Draft := do
  return { draft with choices := ← draft.choices.give switch value }

/-- Reads the rest of a command line.  All of an argument is looked at before any of it counts. -/
def read : List Token → Draft → Except Refusal Draft
  | [], draft => .ok draft
  | .word text :: rest, draft => read rest (draft.putWord text)
  | .mark :: rest, draft => read rest draft.putMark
  | .unknown text :: rest, draft => read rest (draft.interrupt.leave text)
  | .named form switch attached :: rest, draft => do
    let (switches, tail) ← (Tail.ofSwitch form switch attached).mapError .misuse
    let draft := draft.interrupt
    match tail with
    | .nothing => read rest (← draft.turnOn switches)
    | .given switch value => read rest (← (← draft.turnOn switches).give switch value)
    | .awaiting switch =>
      match rest with
      | .word value :: rest => read rest (← (← draft.turnOn switches).give switch value)
      | _ => .error (.misuse (.noValue switch))

/-- The request, if the script is named and nothing is left over. -/
def finish (draft : Draft) : Except Refusal Request :=
  match draft.script, draft.surplus with
  | none, _ => .error (.misuse .noScript)
  | some script, [] => .ok ⟨script, draft.outputPath, draft.choices⟩
  | some _, surplus => .error (.misuse (.surplus surplus.reverse))

end Draft

/-- Reads a command line. -/
def Request.ofArguments (arguments : List (List Char)) : Except Refusal Request := do
  let tokens ← (Token.ofArguments arguments).mapError .misuse
  (← Draft.read tokens .empty).finish

end Screencast.CommandLine
