import Screencast.Json.Basic
import Screencast.Text.Quoted

/-!
# Data values in messages

`inspect` is the text of a value inside a message: strings are quoted, brackets and braces enclose
the parts.  `display` is the same except that a string stands for itself.
-/

namespace Screencast.Json

mutual

/-- The text of a value with strings in quotes. -/
def inspect : Json → List Char
  | .null => "None".toList
  | .bool true => "True".toList
  | .bool false => "False".toList
  | .int n => integerText n
  | .real x => RealStyle.plain.text x
  | .string s => Text.quoted s
  | .array items => '[' :: inspectItems items ++ [']']
  | .object members => '{' :: inspectMembers members ++ ['}']

/-- Values with a comma and a blank between neighbours. -/
def inspectItems : List Json → List Char
  | [] => []
  | [item] => inspect item
  | item :: items => inspect item ++ ',' :: ' ' :: inspectItems items

/-- Members with a comma and a blank between neighbours. -/
def inspectMembers : List (Text × Json) → List Char
  | [] => []
  | [(key, value)] => Text.quoted key ++ ':' :: ' ' :: inspect value
  | (key, value) :: members =>
    Text.quoted key ++ ':' :: ' ' :: inspect value ++ ',' :: ' ' :: inspectMembers members

end

/-- The text of a value; a string stands for itself. -/
def display : Json → Text
  | .string s => s
  | value => .ofChars (inspect value)

end Screencast.Json
