import Screencast.Json.Reader

/-!
# Reading data values from texts

The text of a file has characters only, and `Json.read` reads it.  A text that is made of data may hold
surrogates, and so may the text that a value is written as.  `Json.readCodes` reads such texts: in a
string a surrogate stands for itself, and elsewhere it has no place.
-/

namespace Screencast.Json

/-- What was read and the text after it. -/
abbrev CodeReading (α : Type) := Except Fault (α × Text)

def skipCodeGap (text : Text) : Text := text.dropWhile fun c => c.satisfies isGap

/-- The number of 16 bits that four hexadecimal digits form. -/
def codeUnit? (a b c d : CodePoint) : Option Nat := do
  unit? (← a.char?) (← b.char?) (← c.char?) (← d.char?)

/-- Puts a code point in front of what is read. -/
def prependCode (c : CodePoint) (reading : CodeReading Text) : CodeReading Text :=
  reading.map fun (text, rest) => (c :: text, rest)

/-- Reads a string up to its closing quote; `opened` is the text after the opening one. -/
def readCodeText (opened : Text) : Text → CodeReading Text
  | [] => .error (.malformed .openString (opened.length + 1))
  | .surrogate index :: rest => prependCode (.surrogate index) (readCodeText opened rest)
  | .char '"' :: rest => .ok ([], rest)
  | .char '\\' :: [] => .error (.malformed .openString (opened.length + 1))
  | .char '\\' :: .surrogate _ :: rest => .error (.malformed .escape (rest.length + 2))
  | .char '\\' :: .char 'u' :: a :: b :: c :: d :: rest =>
    -- a fifth code point has to follow, be it only the closing quote
    if rest.isEmpty then .error (.malformed .unicodeEscape (rest.length + 5))
    else
      match codeUnit? a b c d with
      | none => .error (.malformed .unicodeEscape (rest.length + 5))
      | some high =>
        match rest with
        | .char '\\' :: .char 'u' :: e :: f :: g :: h :: more =>
          if 0xd800 ≤ high ∧ high < 0xdc00 ∧ more ≠ [] then
            match codeUnit? e f g h with
            | none => .error (.malformed .unicodeEscape (more.length + 5))
            | some low =>
              match pairChar? high low with
              | some c => prependCode c (readCodeText opened more)
              | none =>
                prependCode (.ofNat high)
                  (readCodeText opened (.char '\\' :: .char 'u' :: e :: f :: g :: h :: more))
          else
            prependCode (.ofNat high)
              (readCodeText opened (.char '\\' :: .char 'u' :: e :: f :: g :: h :: more))
        | rest => prependCode (.ofNat high) (readCodeText opened rest)
  | .char '\\' :: .char 'u' :: rest => .error (.malformed .unicodeEscape (rest.length + 1))
  | .char '\\' :: .char c :: rest =>
    match namedEscape? c with
    | some named => prependCode named (readCodeText opened rest)
    | none => .error (.malformed .escape (rest.length + 2))
  | .char c :: rest =>
    if c.toNat < 0x20 then .error (.malformed .controlCharacter (rest.length + 1))
    else prependCode c (readCodeText opened rest)
termination_by text => text.length

/-- In a string a surrogate stands for itself. -/
theorem readCodeText_surrogate {opened rest : Text} (index : Fin 0x800) :
    readCodeText opened (.surrogate index :: rest)
      = prependCode (.surrogate index) (readCodeText opened rest) := by
  rw [readCodeText]

/-- The characters before the first surrogate. -/
def front (text : Text) : List Char := Text.chars (text.takeWhile fun c => !c.isSurrogate)

/-- The text from the first surrogate on. -/
def back (text : Text) : Text := text.dropWhile fun c => !c.isSurrogate

/-- Reads a word or a number. -/
def readScalar? (text : List Char) : Option (Reading Json) :=
  match readWord? text with
  | some reading => some (.ok reading)
  | none => readNumber? text

mutual

/-- Reads a value that may hold arrays and objects so deep in one another.  The fuel bounds the
depth of the calls and never runs out before the text. -/
def readCodeValue : Nat → Nat → Text → Except Fault (Json × Text)
  | 0, _, text => .error (.malformed .value text.length)
  | fuel + 1, depth, text =>
    match text with
    | .char '"' :: rest => (readCodeText rest rest).map fun (s, rest) => (.string s, rest)
    | .char '[' :: rest =>
      match depth with
      | 0 => .error (.limit .depth)
      | depth + 1 =>
        match skipCodeGap rest with
        | .char ']' :: rest => .ok (.array [], rest)
        | rest => (readCodeItems fuel depth rest).map fun (items, rest) => (.array items, rest)
    | .char '\x7b' :: rest =>
      match depth with
      | 0 => .error (.limit .depth)
      | depth + 1 =>
        match skipCodeGap rest with
        | .char '\x7d' :: rest => .ok (.object [], rest)
        | rest =>
          (readCodeMembers fuel depth rest).map fun (members, rest) =>
            (.object (ofPairs members), rest)
    | text =>
      match readScalar? (front text) with
      | some reading => reading.map fun (value, rest) => (value, Text.ofChars rest ++ back text)
      | none => .error (.malformed .value text.length)

/-- Reads the items of an array and its closing bracket. -/
def readCodeItems : Nat → Nat → Text → Except Fault (List Json × Text)
  | 0, _, text => .error (.malformed .value text.length)
  | fuel + 1, depth, text => do
    let (item, rest) ← readCodeValue fuel depth text
    match skipCodeGap rest with
    | .char ']' :: rest => return ([item], rest)
    | .char ',' :: rest =>
      let (items, rest) ← readCodeItems fuel depth (skipCodeGap rest)
      return (item :: items, rest)
    | rest => .error (.malformed .comma rest.length)

/-- Reads the members of an object and its closing brace. -/
def readCodeMembers : Nat → Nat → Text → Except Fault (List (Text × Json) × Text)
  | 0, _, text => .error (.malformed .propertyName text.length)
  | fuel + 1, depth, text =>
    match text with
    | .char '"' :: rest => do
      let (key, rest) ← readCodeText rest rest
      match skipCodeGap rest with
      | .char ':' :: rest =>
        let (value, rest) ← readCodeValue fuel depth (skipCodeGap rest)
        match skipCodeGap rest with
        | .char '\x7d' :: rest => return ([(key, value)], rest)
        | .char ',' :: rest =>
          let (members, rest) ← readCodeMembers fuel depth (skipCodeGap rest)
          return ((key, value) :: members, rest)
        | rest => .error (.malformed .comma rest.length)
      | rest => .error (.malformed .colon rest.length)
    | text => .error (.malformed .propertyName text.length)

end

/-- Reads the value that a text consists of. -/
def readCodes (text : Text) : Except ReadError Json :=
  if text.head? = some (.char (Char.ofNat 0xfeff)) then .error (.malformed .byteOrderMark 1 1 0)
  else
    match readCodeValue (2 * text.length + 2) maxDepth (skipCodeGap text) with
    | .error (.malformed cause left) => .error (locate text.replaced cause (text.length - left))
    | .error (.limit limit) => .error (.limit limit)
    | .ok (value, rest) =>
      match skipCodeGap rest with
      | [] => .ok value
      | rest => .error (locate text.replaced .extraData (text.length - rest.length))

end Screencast.Json
