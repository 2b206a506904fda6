import Screencast.Config.Option
import Screencast.Disk
import Screencast.Ini.Reader

/-!
# Configuration files

The options of a configuration file stand in one section of a document with sections.
-/

namespace Screencast.Config

/-- The section of the options. -/
def sectionName : String := "GLOBAL"

/-- Why a configuration file gives no options. -/
inductive FileError where
  | config (error : ConfigError)
  /-- The path is none that a file can have. -/
  | impossiblePath (error : DiskError)

/-- The options of a document, read in their order. -/
def optionsOf (document : Ini) (path : List Char) : Except ConfigError (List (Text × Json)) :=
  match document.options? sectionName.toList with
  | none => .error (.noSection sectionName (String.ofList path))
  | some options =>
    options.mapM fun (name, text) => do
      let name := String.ofList name
      return (name, ← readOption name (String.ofList text))

/-- The options of a configuration file. -/
def fileOptions (disk : Disk) (path : List Char) : Except FileError (List (Text × Json)) :=
  let unreadable (reason : String) : FileError := .config (.file (String.ofList path) reason)
  match disk.readText path with
  | .error error =>
    .error <|
      if error.fault = .nullCharacter then .impossiblePath error else unreadable error.message
  | .ok text =>
    match Ini.read text with
    | .error fault => .error (unreadable (fault.message path))
    | .ok document => (optionsOf document path).mapError .config

end Screencast.Config
