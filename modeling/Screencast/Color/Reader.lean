import Screencast.Color.Name
import Screencast.Color.Space
import Screencast.Text.Blank
import Screencast.Text.Case
import Screencast.Text.Digit

/-!
# Reading colors

A color is given by its name, by hexadecimal digits, or by numbers in one of several color spaces.
`Color.ofText?` reads it; how opaque it is counts for nothing.
-/

namespace Screencast.Color

/-- The greatest length of a color. -/
def longest : Nat := 100

/-! ## Hexadecimal digits -/

/-- The parts that hexadecimal digits in pairs stand for. -/
def pairParts : List Nat → List Int
  | high :: low :: rest => (16 * high + low : Nat) :: pairParts rest
  | _ => []

/-- A color by a mark and its digits: one or two for each part and perhaps for the opacity. -/
def ofHexadecimal? : List Char → Option Color
  | '#' :: text => do
    let digits ← text.mapM Text.hexValue?
    let digits := if text.length ≤ 4 then digits.flatMap fun digit => [digit, digit] else digits
    if [3, 4, 6, 8].contains text.length then
      match pairParts digits with
      | red :: green :: blue :: _ => some ⟨red, green, blue⟩
      | _ => none
    else none
  | _ => none

/-! ## Numbers in color spaces -/

/-- How a number is written. -/
inductive Component where
  | whole
  /-- An integer and a percent sign. -/
  | wholePercent
  /-- A number that may have a fraction. -/
  | decimal
  | decimalPercent
  deriving DecidableEq, Repr

namespace Component

def hasFraction : Component → Bool
  | .decimal | .decimalPercent => true
  | .whole | .wholePercent => false

def hasPercent : Component → Bool
  | .wholePercent | .decimalPercent => true
  | .whole | .decimal => false

end Component

/-- A number by its digits and how many of them stand after the point. -/
structure Numeral where
  digits : Nat
  places : Nat
  deriving DecidableEq, Repr

/-- The quotient of a number and an integer. -/
def Numeral.over (numeral : Numeral) (n : Int) : Binary64 :=
  (Binary64.ofDecimal false numeral.digits (-(numeral.places : Int))).div (real n)

def isDecimal (c : Char) : Bool := (Text.decimalValue? c).isSome

def skipBlanks (text : List Char) : List Char := text.dropWhile Text.isBlank

/-- Reads a number and the blanks around it. -/
def readComponent (component : Component) (text : List Char) :
    Option (Numeral × List Char) := do
  let text := skipBlanks text
  let whole := text.takeWhile isDecimal
  if whole.isEmpty then none
  else
    let rest := text.dropWhile isDecimal
    let (fraction, rest) := match component.hasFraction, rest with
      | true, '.' :: rest => (rest.takeWhile isDecimal, rest.dropWhile isDecimal)
      | _, rest => ([], rest)
    let numeral : Numeral := ⟨← Text.decimalNumber? (whole ++ fraction), fraction.length⟩
    match component.hasPercent, rest with
    | true, '%' :: rest => return (numeral, skipBlanks rest)
    | true, _ => none
    | false, rest => return (numeral, skipBlanks rest)

/-- Reads numbers between commas up to the closing parenthesis, which ends the color. -/
def readComponents : List Component → List Char → Option (List Numeral)
  | [], _ => none
  | [last], text =>
    match readComponent last text with
    | some (numeral, [')']) => some [numeral]
    | _ => none
  | component :: rest, text =>
    match readComponent component text with
    | some (numeral, ',' :: text) => (readComponents rest text).map (numeral :: ·)
    | _ => none

/-- A color space: how a color in it begins, how its numbers are written, and the color of the first
three of them. -/
structure Space where
  opening : String
  components : List Component
  colorOf : Numeral → Numeral → Numeral → Color

/-- The parts themselves. -/
def ofParts (red green blue : Numeral) : Color := ⟨red.digits, green.digits, blue.digits⟩

def ofPercentages (red green blue : Numeral) : Color :=
  ⟨partOfPercentage red.digits, partOfPercentage green.digits, partOfPercentage blue.digits⟩

/-- A hue in degrees with two percentages. -/
def ofHue (colorOf : Binary64 → Binary64 → Binary64 → Color) (hue first second : Numeral) : Color :=
  colorOf (hue.over 360) (first.over 100) (second.over 100)

def spaces : List Space :=
  [⟨"rgb(", [.whole, .whole, .whole], ofParts⟩,
   ⟨"rgb(", [.wholePercent, .wholePercent, .wholePercent], ofPercentages⟩,
   ⟨"hsl(", [.decimal, .decimalPercent, .decimalPercent], ofHue ofLightness⟩,
   ⟨"hsb(", [.decimal, .decimalPercent, .decimalPercent], ofHue ofBrightness⟩,
   ⟨"hsv(", [.decimal, .decimalPercent, .decimalPercent], ofHue ofBrightness⟩,
   ⟨"rgba(", [.whole, .whole, .whole, .whole], ofParts⟩]

/-- A color of a space. -/
def Space.read? (space : Space) (text : List Char) : Option Color :=
  if space.opening.toList.isPrefixOf text then
    match readComponents space.components (text.drop space.opening.length) with
    | some (first :: second :: third :: _) => some (space.colorOf first second third)
    | _ => none
  else none

/-- Drops one line feed at the end. -/
def dropLineFeed (text : List Char) : List Char :=
  if text.getLast? = some '\n' then text.dropLast else text

/-- The color that a text gives.  The case of letters does not matter, and a line feed may follow
unless it is the name of a color. -/
def ofText? (text : List Char) : Option Color :=
  if longest < text.length then none
  else
    let small := Text.toLower text
    let written := dropLineFeed small
    ((ofName? small).or (ofHexadecimal? written)).or (spaces.findSome? (·.read? written))

end Screencast.Color
