import Screencast.Json.Basic
import Screencast.Text.Quoted

/-!
# Writing data values

The written form has one blank after each comma and colon and no line ends.  Strings are escaped
either down to printable ASCII or only as far as the format demands.
-/

namespace Screencast.Json

/-- How strings are written. -/
inductive Charset where
  /-- Everything beyond printable ASCII is escaped. -/
  | ascii
  /-- Control characters, quotes and backslashes are escaped. -/
  | unicode
  deriving DecidableEq, Repr

/-- The escape for a number of 16 bits. -/
def unitEscape (unit : Nat) : List Char := '\\' :: 'u' :: Text.hexText 4 unit

/-- The escape for a code point by its units of 16 bits. -/
def codeEscape (c : CodePoint) : List Char :=
  let n := c.toNat
  if n < 0x10000 then unitEscape n
  else unitEscape (0xd800 + (n - 0x10000) / 0x400) ++ unitEscape (0xdc00 + (n - 0x10000) % 0x400)

/-- The letter that stands for a code point behind a backslash, if there is one. -/
def escapeLetter? (c : CodePoint) : Option Char :=
  match c with
  | .char '"' => some '"'
  | .char '\\' => some '\\'
  | .char '\n' => some 'n'
  | .char '\r' => some 'r'
  | .char '\t' => some 't'
  | c => if c.toNat = 8 then some 'b' else if c.toNat = 12 then some 'f' else none

/-- One code point of a string. -/
def writeCode (charset : Charset) (c : CodePoint) : Text :=
  match escapeLetter? c with
  | some letter => ['\\', letter]
  | none =>
    if c.toNat < 0x20 ∨ (charset = .ascii ∧ 0x7f ≤ c.toNat) then .ofChars (codeEscape c)
    else [c]

/-- A string in double quotes. -/
def writeString (charset : Charset) (s : Text) : Text :=
  '"' :: (s.flatMap (writeCode charset) ++ "\"")

mutual

/-- The written form of a value. -/
def write (charset : Charset) : Json → Text
  | .null => "null"
  | .bool true => "true"
  | .bool false => "false"
  | .int n => .ofChars (integerText n)
  | .real x => .ofChars (RealStyle.data.text x)
  | .string s => writeString charset s
  | .array items => '[' :: (writeItems charset items ++ "]")
  | .object members => '{' :: (writeMembers charset members ++ "\x7d")

/-- Values with a comma and a blank between neighbours. -/
def writeItems (charset : Charset) : List Json → Text
  | [] => []
  | [item] => write charset item
  | item :: items => write charset item ++ ", " ++ writeItems charset items

/-- Members with a comma and a blank between neighbours. -/
def writeMembers (charset : Charset) : List (Text × Json) → Text
  | [] => []
  | [(key, value)] => writeString charset key ++ ": " ++ write charset value
  | (key, value) :: members =>
    writeString charset key ++ ": " ++ write charset value ++ ", " ++
      writeMembers charset members

end

/-- The written form in ASCII, as it stands in messages. -/
def asciiText (value : Json) : Text := write .ascii value

end Screencast.Json
