import Screencast.Config.Basic
import Screencast.Config.Error
import Screencast.Text.Case
import Screencast.Text.Numeral

/-!
# Options as texts

In a configuration file the value of an option is a text.  `Config.readOption` reads it as a value
of the kind that the default value of the option has.
-/

namespace Screencast.Config

/-- The words for truth values. -/
def truthWords : List (String × Bool) :=
  [("1", true), ("yes", true), ("true", true), ("on", true),
   ("0", false), ("no", false), ("false", false), ("off", false)]

/-- The truth value that a word in letters of any case stands for. -/
def truth? (text : String) : Option Bool :=
  let word := String.ofList (Text.toLower text.toList)
  (truthWords.find? (·.1 = word)).map Prod.snd

/-- A frame rate: a real numeral when it has a point, an integer otherwise. -/
def frameRate? (text : String) : Option Number :=
  if text.toList.contains '.' then (Text.real? text.toList).map .real
  else (Text.integer? text.toList).map .int

/-- The value that a text gives to an option. -/
def readOption (name text : String) : Except ConfigError Json :=
  let checked (value : Option Json) : Except ConfigError Json :=
    match value with
    | some value => .ok value
    | none => .error (.unreadable name text)
  match Json.find? name defaults with
  | none => .error (.unknownName name)
  | some (.bool _) => checked ((truth? text).map .bool)
  | some (.int _) =>
    if name = "fps" then checked ((frameRate? text).map .ofNumber)
    else checked ((Text.integer? text.toList).map .int)
  | some _ => .ok (.string text)

end Screencast.Config
