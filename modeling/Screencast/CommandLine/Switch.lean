import Screencast.Text.Quoted

/-!
# Switches

A switch changes how the program works.  It has a word after two dashes, most of them a letter after
one, and some take a value.
-/

namespace Screencast.CommandLine

inductive Switch where
  | help
  | config
  | renderer
  | frameRate
  | lineCount
  | seed
  | lineNumbers
  | headless
  | verbose
  deriving DecidableEq, Repr

namespace Switch

def all : List Switch :=
  [help, config, renderer, frameRate, lineCount, seed, lineNumbers, headless, verbose]

/-- The names of a switch, the one with a letter first. -/
def names : Switch → List String
  | .help => ["-h", "--help"]
  | .config => ["-c", "--config"]
  | .renderer => ["-r", "--renderer"]
  | .frameRate => ["-f", "--fps"]
  | .lineCount => ["-l", "--line-count"]
  | .seed => ["-s", "--seed"]
  | .lineNumbers => ["-n", "--line-numbers"]
  | .headless => ["--headless"]
  | .verbose => ["-v", "--verbose"]

def takesValue : Switch → Bool
  | .config | .renderer | .frameRate | .lineCount | .seed => true
  | .help | .lineNumbers | .headless | .verbose => false

/-- What a message calls a switch. -/
def label (switch : Switch) : String := "/".intercalate switch.names

/-- All names with the switches they mean. -/
def spellings : List (List Char × Switch) :=
  all.flatMap fun switch => switch.names.map fun name => (name.toList, switch)

/-- The switch that a name means. -/
def ofName? (name : List Char) : Option Switch :=
  (spellings.find? (·.1 = name)).map Prod.snd

/-- The spellings that begin with a text. -/
def spelledFrom (start : List Char) : List (List Char × Switch) :=
  spellings.filter fun spelling => start.isPrefixOf spelling.1

end Switch

end Screencast.CommandLine
