import Screencast.CommandLine.Misuse
import Screencast.Text.Digit

/-!
# The arguments one by one

Each argument is a word, the mark after which everything is a word, or the name of a switch, with or
without a value attached.  A negative number and a text with spaces are words in spite of their
dash.
-/

namespace Screencast.CommandLine

/-- How a switch is named: by a letter after a dash, or by a word after two. -/
inductive Form where
  | letter
  | word
  deriving DecidableEq, Repr

/-- What an argument is. -/
inductive Token where
  | word (text : List Char)
  /-- The double dash. -/
  | mark
  /-- A switch with the text attached to its name, if there is any. -/
  | named (form : Form) (switch : Switch) (attached : Option (List Char))
  /-- The name of no switch. -/
  | unknown (text : List Char)
  deriving DecidableEq, Repr

namespace Token

/-- A switch by a name of it. -/
def ofSpelling (name : List Char) (switch : Switch) (attached : Option (List Char)) : Token :=
  .named (if "--".toList.isPrefixOf name then .word else .letter) switch attached

/-- The text before the first equals sign, and what stands after it. -/
def splitValue (argument : List Char) : List Char × Option (List Char) :=
  (argument.takeWhile (· ≠ '='),
    match argument.dropWhile (· ≠ '=') with
    | [] => none
    | _ :: value => some value)

/-- Whether a text is digits, perhaps with a point among them but not after them; one line feed may
stand at its end. -/
def isUnsignedNumber (text : List Char) : Bool :=
  let text := if text.getLast? = some '\n' then text.dropLast else text
  let isDecimal (c : Char) : Bool := (Text.decimalValue? c).isSome
  match text.dropWhile isDecimal with
  | [] => !text.isEmpty
  | '.' :: fraction => !fraction.isEmpty && fraction.all isDecimal
  | _ => false

/-- What an argument with a dash can be that is no name in full. -/
def candidates (argument : List Char) : List (List Char × Token) :=
  if "--".toList.isPrefixOf argument then
    let (start, value) := splitValue argument
    (Switch.spelledFrom start).map fun (name, switch) => (name, ofSpelling name switch value)
  else
    let name := argument.take 2
    match Switch.ofName? name with
    | some switch => [(name, .named .letter switch (some (argument.drop 2)))]
    | none => []

/-- What an argument other than the mark is. -/
def ofArgument (argument : List Char) : Except Misuse Token :=
  match argument with
  | '-' :: rest =>
    match Switch.ofName? argument with
    | some switch => .ok (ofSpelling argument switch none)
    | none =>
      let (name, value) := splitValue argument
      if rest.isEmpty then .ok (.word argument)
      else
        match value, Switch.ofName? name with
        | some value, some switch => .ok (ofSpelling name switch (some value))
        | _, _ =>
          match candidates argument with
          | [] =>
            .ok (if isUnsignedNumber rest || argument.contains ' ' then .word argument
              else .unknown argument)
          | [(_, token)] => .ok token
          | several => .error (.ambiguous argument (several.map Prod.fst))
  | _ => .ok (.word argument)

/-- What the arguments are. -/
def ofArguments : List (List Char) → Except Misuse (List Token)
  | [] => .ok []
  | argument :: rest =>
    if argument = ['-', '-'] then .ok (.mark :: rest.map .word)
    else do return (← ofArgument argument) :: (← ofArguments rest)

end Token

end Screencast.CommandLine
