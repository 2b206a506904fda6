import Screencast.Text.Blank
import Screencast.Text.Digit
import Screencast.Number.Binary64

/-!
# Reading numerals

An integer numeral is a sign and decimal digits of any scripts, where single underscores may part
the digits and blanks may surround the whole.  A real numeral adds a fraction and an exponent.
-/

namespace Screencast.Text

/-- An integer numeral has at most this many digits. -/
def maxDigits : Nat := 4300

/-- Numbers with more digits begin here. -/
def longNumbers : Nat := Nat.pow 10 maxDigits

/-- Digits of all scripts as ASCII digits and blanks beyond ASCII as spaces; other characters beyond
ASCII can occur in no numeral. -/
def asciiNumeralChar (c : Char) : Char :=
  if c.toNat < 0x7f then c
  else if isBlank c then ' '
  else
    match decimalValue? c with
    | some value => Char.ofNat ('0'.toNat + value)
    | none => '?'

/-- A numeral in ASCII, without the blanks around it. -/
def asciiNumeral (text : List Char) : List Char :=
  trimWhile isNumeralBlank (text.map asciiNumeralChar)

def isAsciiDigit (c : Char) : Bool := '0' ≤ c && c ≤ '9'

/-- The number written by ASCII digits. -/
def digitsValue (digits : List Char) : Nat :=
  digits.foldl (fun sum c => 10 * sum + (c.toNat - '0'.toNat)) 0

/-- Removes the underscores, each of which has to stand between two digits. -/
def dropUnderscores (before : Option Char) : List Char → Option (List Char)
  | [] => some []
  | '_' :: rest =>
    if before.any isAsciiDigit && rest.head?.any isAsciiDigit then dropUnderscores (some '_') rest
    else none
  | c :: rest => (dropUnderscores (some c) rest).map (c :: ·)

/-- A sign, true for minus, and the text after it. -/
def readSign : List Char → Bool × List Char
  | '-' :: rest => (true, rest)
  | '+' :: rest => (false, rest)
  | text => (false, text)

/-- The integer a numeral stands for. -/
def integer? (text : List Char) : Option Int := do
  let (negative, digits) := readSign (asciiNumeral text)
  let digits ← dropUnderscores none digits
  if digits.isEmpty || !digits.all isAsciiDigit || maxDigits < digits.length then none
  else
    let n : Int := digitsValue digits
    return if negative then -n else n

/-- The exponent part of a real numeral: nothing, or a mark, a sign and digits. -/
def readExponent : List Char → Option Int
  | [] => some 0
  | mark :: rest =>
    let (negative, digits) := readSign rest
    if (mark = 'e' || mark = 'E') && !digits.isEmpty && digits.all isAsciiDigit then
      let n : Int := digitsValue digits
      some (if negative then -n else n)
    else none

/-- The binary number nearest to the value of a real numeral. -/
def real? (text : List Char) : Option Binary64 := do
  let (negative, body) := readSign (← dropUnderscores none (asciiNumeral text))
  let whole := body.takeWhile isAsciiDigit
  let rest := body.dropWhile isAsciiDigit
  let (fraction, rest) := match rest with
    | '.' :: rest => (rest.takeWhile isAsciiDigit, rest.dropWhile isAsciiDigit)
    | rest => ([], rest)
  if whole.isEmpty && fraction.isEmpty then none
  else
    let exponent ← readExponent rest
    return .ofDecimal negative (digitsValue (whole ++ fraction)) (exponent - fraction.length)

end Screencast.Text
