import Screencast.Json.Basic
import Screencast.Text.Numeral

/-!
# Reading data values

`Json.read` reads one value that takes the whole text.  A fault names its cause and the place where
it was noticed.  Beyond the standard format the special numbers `NaN`, `Infinity` and `-Infinity`
are read, and of members with one key the last gives the value.

The reader proper counts places from the end: a fault carries the number of characters left.
-/

namespace Screencast.Json

/-- What makes a text malformed. -/
inductive Malformation where
  | value
  | propertyName
  | colon
  | comma
  | extraData
  | openString
  | controlCharacter
  | escape
  | unicodeEscape
  | byteOrderMark
  deriving DecidableEq, Repr

/-- What was missing or wrong, in words. -/
def Malformation.message : Malformation → String
  | .value => "Expecting value"
  | .propertyName => "Expecting property name enclosed in double quotes"
  | .colon => "Expecting ':' delimiter"
  | .comma => "Expecting ',' delimiter"
  | .extraData => "Extra data"
  | .openString => "Unterminated string starting at"
  | .controlCharacter => "Invalid control character at"
  | .escape => "Invalid \\escape"
  | .unicodeEscape => "Invalid \\uXXXX escape"
  | .byteOrderMark => "Unexpected UTF-8 BOM (decode using utf-8-sig)"

/-- A limit that a value goes beyond. -/
inductive Limit where
  /-- An integer has this many digits, which is more than are read. -/
  | digits (count : Nat)
  /-- Arrays and objects lie deeper in one another than they are read. -/
  | depth
  deriving DecidableEq, Repr

/-- How deep arrays and objects may lie in one another. -/
def maxDepth : Nat := 990

def Limit.message : Limit → String
  | .digits count =>
    s!"Exceeds the limit ({Text.maxDigits} digits) for integer string conversion: value has " ++
      s!"{count} digits; use sys.set_int_max_str_digits() to increase the limit"
  | .depth => "maximum recursion depth exceeded"

/-- Why a text has no value. -/
inductive ReadError where
  /-- The text is malformed at an offset, which lies in this line and column. -/
  | malformed (cause : Malformation) (line column offset : Nat)
  | limit (limit : Limit)
  deriving DecidableEq, Repr

def ReadError.message : ReadError → String
  | .malformed cause line column offset =>
    s!"{cause.message}: line {line} column {column} (char {offset})"
  | .limit reached => reached.message

/-- A fault while reading, with the number of characters left where it was noticed. -/
inductive Fault where
  | malformed (cause : Malformation) (left : Nat)
  | limit (limit : Limit)
  deriving DecidableEq, Repr

/-- What was read and the text after it. -/
abbrev Reading (α : Type) := Except Fault (α × List Char)

/-- The characters that may stand between the parts of a value. -/
def isGap (c : Char) : Bool := c = ' ' || c = '\t' || c = '\n' || c = '\r'

def skipGap (text : List Char) : List Char := text.dropWhile isGap

/-- The number of 16 bits that four hexadecimal digits form. -/
def unit? (a b c d : Char) : Option Nat := do
  let high := (← Text.hexValue? a) * 16 + (← Text.hexValue? b)
  return (high * 16 + (← Text.hexValue? c)) * 16 + (← Text.hexValue? d)

/-- The character after a backslash, when one letter names it. -/
def namedEscape? : Char → Option Char
  | '"' => some '"'
  | '\\' => some '\\'
  | '/' => some '/'
  | 'b' => some (Char.ofNat 8)
  | 'f' => some (Char.ofNat 12)
  | 'n' => some '\n'
  | 'r' => some '\r'
  | 't' => some '\t'
  | _ => none

/-- The character of a pair of numbers of 16 bits, when they form one. -/
def pairChar? (high low : Nat) : Option Char :=
  if 0xd800 ≤ high ∧ high < 0xdc00 ∧ 0xdc00 ≤ low ∧ low < 0xe000 then
    some (Char.ofNat (0x10000 + (high - 0xd800) * 0x400 + (low - 0xdc00)))
  else none

/-- Puts a code point in front of what is read. -/
def prepend (c : CodePoint) (reading : Reading Text) : Reading Text :=
  reading.map fun (text, rest) => (c :: text, rest)

/-- Reads a string up to its closing quote; `opened` is the text after the opening one.  A number of
16 bits that is no part of a pair stands for its code point, surrogates included. -/
def readText (opened : List Char) : List Char → Reading Text
  | [] => .error (.malformed .openString (opened.length + 1))
  | '"' :: rest => .ok ([], rest)
  | '\\' :: [] => .error (.malformed .openString (opened.length + 1))
  | '\\' :: 'u' :: a :: b :: c :: d :: rest =>
    -- a fifth character has to follow, be it only the closing quote
    if rest.isEmpty then .error (.malformed .unicodeEscape (rest.length + 5))
    else
      match unit? a b c d with
      | none => .error (.malformed .unicodeEscape (rest.length + 5))
      | some high =>
        match rest with
        | '\\' :: 'u' :: e :: f :: g :: h :: more =>
          if 0xd800 ≤ high ∧ high < 0xdc00 ∧ more ≠ [] then
            match unit? e f g h with
            | none => .error (.malformed .unicodeEscape (more.length + 5))
            | some low =>
              match pairChar? high low with
              | some c => prepend c (readText opened more)
              | none =>
                prepend (.ofNat high) (readText opened ('\\' :: 'u' :: e :: f :: g :: h :: more))
          else prepend (.ofNat high) (readText opened ('\\' :: 'u' :: e :: f :: g :: h :: more))
        | rest => prepend (.ofNat high) (readText opened rest)
  | '\\' :: 'u' :: rest => .error (.malformed .unicodeEscape (rest.length + 1))
  | '\\' :: c :: rest =>
    match namedEscape? c with
    | some named => prepend named (readText opened rest)
    | none => .error (.malformed .escape (rest.length + 2))
  | c :: rest =>
    if c.toNat < 0x20 then .error (.malformed .controlCharacter (rest.length + 1))
    else prepend c (readText opened rest)
termination_by text => text.length

/-- Reads a string after its opening quote. -/
def readString (rest : List Char) : Reading Text := readText rest rest

/-- The values written as words. -/
def words : List (List Char × Json) :=
  [("null".toList, .null), ("true".toList, .bool true), ("false".toList, .bool false),
   ("NaN".toList, .real .nan), ("Infinity".toList, .real (.infinite false)),
   ("-Infinity".toList, .real (.infinite true))]

/-- Reads a value written as a word. -/
def readWord? (text : List Char) : Option (Json × List Char) :=
  (words.find? fun word => word.1.isPrefixOf text).map fun word =>
    (word.2, text.drop word.1.length)

/-- The digits before the point: a zero alone or digits that begin with another one. -/
def readWhole? (text : List Char) : Option (List Char × List Char) :=
  match text with
  | '0' :: rest => some (['0'], rest)
  | c :: _ =>
    if Text.isAsciiDigit c then
      some (text.takeWhile Text.isAsciiDigit, text.dropWhile Text.isAsciiDigit)
    else none
  | [] => none

/-- The digits after a point; without a digit the point is not part of the number. -/
def readFraction (text : List Char) : Option (List Char) × List Char :=
  match text with
  | '.' :: rest =>
    let digits := rest.takeWhile Text.isAsciiDigit
    if digits.isEmpty then (none, text) else (some digits, rest.dropWhile Text.isAsciiDigit)
  | _ => (none, text)

/-- The exponent part; without a digit its mark is not part of the number. -/
def readPower (text : List Char) : Option Int × List Char :=
  match text with
  | mark :: rest =>
    if mark = 'e' ∨ mark = 'E' then
      let (negative, rest) := Text.readSign rest
      let digits := rest.takeWhile Text.isAsciiDigit
      if digits.isEmpty then (none, text)
      else
        let power : Int := Text.digitsValue digits
        (some (if negative then -power else power), rest.dropWhile Text.isAsciiDigit)
    else (none, text)
  | [] => (none, text)

/-- Reads a number; `none` when there is none. -/
def readNumber? (text : List Char) : Option (Reading Json) := do
  let (negative, body) := match text with
    | '-' :: body => (true, body)
    | body => (false, body)
  let (whole, rest) ← readWhole? body
  let (fraction, rest) := readFraction rest
  let (power, rest) := readPower rest
  return match fraction, power with
    | none, none =>
      if Text.maxDigits < whole.length then .error (.limit (.digits whole.length))
      else
        let n : Int := Text.digitsValue whole
        .ok (.int (if negative then -n else n), rest)
    | fraction, power =>
      let digits := fraction.getD []
      .ok (.real (.ofDecimal negative (Text.digitsValue (whole ++ digits))
        (power.getD 0 - digits.length)), rest)

mutual

/-- Reads a value that may hold arrays and objects so deep in one another.  The fuel bounds the
depth of the calls and never runs out before the text. -/
def readValue : Nat → Nat → List Char → Except Fault (Json × List Char)
  | 0, _, text => .error (.malformed .value text.length)
  | fuel + 1, depth, text =>
    match text with
    | '"' :: rest => (readString rest).map fun (s, rest) => (.string s, rest)
    | '[' :: rest =>
      match depth with
      | 0 => .error (.limit .depth)
      | depth + 1 =>
        match skipGap rest with
        | ']' :: rest => .ok (.array [], rest)
        | rest => (readItems fuel depth rest).map fun (items, rest) => (.array items, rest)
    | '{' :: rest =>
      match depth with
      | 0 => .error (.limit .depth)
      | depth + 1 =>
        match skipGap rest with
        | '}' :: rest => .ok (.object [], rest)
        | rest =>
          (readMembers fuel depth rest).map fun (members, rest) => (.object (ofPairs members), rest)
    | text =>
      match readWord? text with
      | some reading => .ok reading
      | none =>
        match readNumber? text with
        | some reading => reading
        | none => .error (.malformed .value text.length)

/-- Reads the items of an array and its closing bracket. -/
def readItems : Nat → Nat → List Char → Except Fault (List Json × List Char)
  | 0, _, text => .error (.malformed .value text.length)
  | fuel + 1, depth, text => do
    let (item, rest) ← readValue fuel depth text
    match skipGap rest with
    | ']' :: rest => return ([item], rest)
    | ',' :: rest =>
      let (items, rest) ← readItems fuel depth (skipGap rest)
      return (item :: items, rest)
    | rest => .error (.malformed .comma rest.length)

/-- Reads the members of an object and its closing brace. -/
def readMembers : Nat → Nat → List Char → Except Fault (List (Text × Json) × List Char)
  | 0, _, text => .error (.malformed .propertyName text.length)
  | fuel + 1, depth, text =>
    match text with
    | '"' :: rest => do
      let (key, rest) ← readString rest
      match skipGap rest with
      | ':' :: rest =>
        let (value, rest) ← readValue fuel depth (skipGap rest)
        match skipGap rest with
        | '}' :: rest => return ([(key, value)], rest)
        | ',' :: rest =>
          let (members, rest) ← readMembers fuel depth (skipGap rest)
          return ((key, value) :: members, rest)
        | rest => .error (.malformed .comma rest.length)
      | rest => .error (.malformed .colon rest.length)
    | text => .error (.malformed .propertyName text.length)

end

/-- The place of an offset in a text. -/
def locate (text : List Char) (cause : Malformation) (offset : Nat) : ReadError :=
  let before := text.take offset
  .malformed cause (before.count '\n' + 1)
    ((before.reverse.takeWhile (· ≠ '\n')).length + 1) offset

/-- Reads the value that a text consists of. -/
def read (text : List Char) : Except ReadError Json :=
  if text.head? = some (Char.ofNat 0xfeff) then .error (.malformed .byteOrderMark 1 1 0)
  else
    match readValue (2 * text.length + 2) maxDepth (skipGap text) with
    | .error (.malformed cause left) => .error (locate text cause (text.length - left))
    | .error (.limit limit) => .error (.limit limit)
    | .ok (value, rest) =>
      match skipGap rest with
      | [] => .ok value
      | rest => .error (locate text .extraData (text.length - rest.length))

end Screencast.Json
