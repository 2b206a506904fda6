import Screencast.Json.Display
import Screencast.Text.Lines

/-!
# Refused configurations

Why options make no configuration, with the message that says so.
-/

namespace Screencast

/-- Why options are refused. -/
inductive ConfigError where
  /-- Options that do not exist. -/
  | unknown (names : List Text)
  /-- A value that is no integer or less than the least one. -/
  | integer (name : String) (least : Int) (value : Json)
  /-- A frame rate that is no positive number. -/
  | frameRate (value : Json)
  /-- A quality above the greatest one. -/
  | quality (greatest : Nat)
  /-- A renderer that is none of these. -/
  | renderer (names : List String)
  | seed
  /-- A text is read for an option that does not exist. -/
  | unknownName (name : String)
  /-- A text that is no value of the option. -/
  | unreadable (name text : String)
  /-- A file that cannot be read. -/
  | file (path : String) (reason : String)
  /-- A file without the section of the options. -/
  | noSection (header path : String)
  deriving Inhabited

namespace ConfigError

def message : ConfigError → Text
  | .unknown names => "Unknown options: " ++ Text.joinWith ", " names
  | .integer name least value =>
    s!"Invalid value for option \"{name}\": expected an integer " ++
      s!"greater than or equal to {least}, got " ++ Text.ofChars value.inspect
  | .frameRate value =>
    "Invalid value for option \"fps\": expected a positive number, got " ++
      Text.ofChars value.inspect
  | .quality greatest =>
    s!"Invalid value for option \"quality\": expected a value between 1 and {greatest}"
  | .renderer names =>
    "Invalid value for option \"renderer\": expected one of " ++ ", ".intercalate names
  | .seed => "Invalid value for option \"seed\": expected an integer"
  | .unknownName name => s!"Unknown option: \"{name}\""
  | .unreadable name text => s!"Invalid value for option \"{name}\": {text}"
  | .file path reason => s!"Unable to read configuration file \"{path}\": {reason}"
  | .noSection header path =>
    s!"Missing [{header}] section in configuration file \"{path}\""

end ConfigError

end Screencast
