import Screencast.Text.Basic
import Screencast.Text.Printable

/-!
# Quoted text

A text in quotes as it appears in messages: in single quotes, or in double quotes when it holds
single quotes and no double ones.  Backslashes, the enclosing quote and unprintable characters are
escaped.
-/

namespace Screencast.Text

/-- A number in hexadecimal with at least `width` digits. -/
def hexText (width n : Nat) : List Char :=
  let digits := Nat.toDigits 16 n
  List.replicate (width - digits.length) '0' ++ digits

/-- The quote that encloses a text. -/
def enclosingQuote (text : Text) : Char :=
  if text.contains (.char '\'') && !text.contains (.char '"') then '"' else '\''

/-- The escape for a code point by its number. -/
def escapeCode (n : Nat) : List Char :=
  if n < 0x100 then '\\' :: 'x' :: hexText 2 n
  else if n < 0x10000 then '\\' :: 'u' :: hexText 4 n
  else '\\' :: 'U' :: hexText 8 n

/-- One character inside quotes; `shown` says which ones need no escape. -/
def quotedChar (shown : Char → Bool) (quote c : Char) : List Char :=
  if c = quote ∨ c = '\\' then ['\\', c]
  else if c = '\t' then ['\\', 't']
  else if c = '\n' then ['\\', 'n']
  else if c = '\r' then ['\\', 'r']
  else if shown c then [c]
  else escapeCode c.toNat

/-- One code point inside quotes; a surrogate is never shown. -/
def quotedCode (shown : Char → Bool) (quote : Char) : CodePoint → List Char
  | .char c => quotedChar shown quote c
  | c => escapeCode c.toNat

/-- A text in quotes, where `shown` says which characters need no escape. -/
def quotedWith (shown : Char → Bool) (text : Text) : List Char :=
  let quote := enclosingQuote text
  quote :: text.flatMap (quotedCode shown quote) ++ [quote]

/-- A text in quotes, printable characters of all scripts shown. -/
def quoted (text : Text) : List Char := quotedWith isPrintable text

/-- A text in quotes, only ASCII characters shown. -/
def quotedAscii (text : Text) : List Char :=
  quotedWith (fun c => isPrintable c && c.toNat < 0x80) text

/-- `quoted` on strings. -/
def quotedString (text : String) : String := String.ofList (quoted text)

end Screencast.Text
