import Screencast.Number.Binary64

/-!
# Decimal texts of numbers

An integer is written with its decimal digits.  A binary number is written with the fewest
significant digits that read back to it (`Binary64.shortest`); of the candidates with that many
digits the one nearest to the number is taken.  `RealStyle` holds what a format decides beyond the
digits.
-/

namespace Screencast

/-- The decimal digits of an integer, after a minus sign when it is negative. -/
def integerText (n : Int) : List Char :=
  if n < 0 then '-' :: Nat.toDigits 10 n.natAbs else Nat.toDigits 10 n.natAbs

/-- A decimal `significand · 10 ^ exponent`. -/
structure Decimal where
  significand : Nat
  exponent : Int
  deriving DecidableEq, Repr

namespace Decimal

/-- Multiplies by a power of ten, and leaves the number when the power is negative. -/
def scaleTen (n : Nat) (power : Int) : Nat := n * Nat.pow 10 power.toNat

/-- The place of the leading decimal digit of `num / den`, for a positive quotient. -/
def leadingPlace (num den : Nat) : Int :=
  if den ≤ num then (Nat.toDigits 10 (num / den)).length - 1
  else
    let zeros := (Nat.toDigits 10 (den / num)).length
    if den = num * Nat.pow 10 (zeros - 1) then 1 - (zeros : Int) else -(zeros : Int)

/-- Drops the zeros at the end of the significand. -/
def trim : Nat → Decimal → Decimal
  | 0, d => d
  | fuel + 1, d =>
    if d.significand % 10 = 0 ∧ d.significand ≠ 0 then
      trim fuel ⟨d.significand / 10, d.exponent + 1⟩
    else d

end Decimal

namespace Binary64

open Decimal

/-- The reals that round to a number: from `low` to `high` quarters of the unit in its last place,
around `4 · significand`; `closed` says that the ends belong to them. -/
structure Neighbourhood where
  low : Nat
  middle : Nat
  high : Nat
  closed : Bool

/-- The neighbourhood of `significand · 2 ^ exponent`.  Below a power of two the numbers lie twice
as close, so that the lower end is nearer. -/
def neighbourhood (significand : Nat) (exponent : Int) : Neighbourhood where
  low := 4 * significand -
    (if significand = Nat.pow 2 fractionBits ∧ leastExponent < exponent then 1 else 2)
  middle := 4 * significand
  high := 4 * significand + 2
  closed := significand % 2 = 0

/-- The decimal with `count` digits that lies in the neighbourhood and nearest to its middle. -/
def withDigits (significand : Nat) (exponent : Int) (count : Nat) : Option Decimal :=
  let near := neighbourhood significand exponent
  let (num, den) := magnitude 1 (exponent - 2)
  let place := leadingPlace (near.middle * num) den - count + 1
  -- both sides of a comparison of `c · 10 ^ place` with `q · num / den`
  let onGrid (c : Nat) : Nat := scaleTen (c * den) place
  let quarters (q : Nat) : Nat := scaleTen (q * num) (-place)
  let lower := quarters near.middle / scaleTen den place
  let upper := lower + 1
  let within (c : Nat) : Bool :=
    if near.closed then quarters near.low ≤ onGrid c && onGrid c ≤ quarters near.high
    else quarters near.low < onGrid c && onGrid c < quarters near.high
  let below := quarters near.middle - onGrid lower
  let above := onGrid upper - quarters near.middle
  if within lower then
    if within upper && (above < below || (above = below && lower % 2 = 1)) then
      some ⟨upper, place⟩
    else some ⟨lower, place⟩
  else if within upper then some ⟨upper, place⟩
  else none

/-- The shortest decimal that reads back to `significand · 2 ^ exponent`, for a significand that is
not zero.  Seventeen digits always suffice. -/
def shortest (significand : Nat) (exponent : Int) : Decimal :=
  let found := (List.range 17).findSome? fun n => withDigits significand exponent (n + 1)
  trim 18 (found.getD ⟨0, 0⟩)

end Binary64

/-- What a format decides about the text of a binary number. -/
structure RealStyle where
  /-- The least exponent written without an exponent part. -/
  positionalFrom : Int
  /-- The first exponent above it that is written with an exponent part. -/
  positionalBefore : Int
  infinity : String
  notANumber : String

namespace RealStyle

/-- Positional between `1e-04` and `1e+16`, special values in lower case. -/
def plain : RealStyle := ⟨-4, 16, "inf", "nan"⟩

/-- As `plain`, with the special values spelled as in data files. -/
def data : RealStyle := ⟨-4, 16, "Infinity", "NaN"⟩

/-- The exponent part: a sign and at least two digits. -/
def exponentText (exponent : Int) : List Char :=
  let digits := Nat.toDigits 10 exponent.natAbs
  'e' :: (if exponent < 0 then '-' else '+') :: List.replicate (2 - digits.length) '0' ++ digits

/-- Places the decimal point among the digits, whose first one stands at `place`. -/
def positional (digits : List Char) (place : Int) : List Char :=
  if place < 0 then
    '0' :: '.' :: List.replicate (-place - 1).toNat '0' ++ digits
  else
    let whole := place.toNat + 1
    let fraction := digits.drop whole
    digits.take whole ++ List.replicate (whole - digits.length) '0' ++
      '.' :: (if fraction.isEmpty then ['0'] else fraction)

/-- Digits with a point after the first one, when there are more. -/
def scientific (digits : List Char) (place : Int) : List Char :=
  match digits with
  | first :: second :: more => first :: '.' :: second :: more ++ exponentText place
  | few => few ++ exponentText place

/-- The text of a number in this style. -/
def text (style : RealStyle) : Binary64 → List Char
  | .nan => style.notANumber.toList
  | .infinite negative =>
    (if negative then ['-'] else []) ++ style.infinity.toList
  | .finite negative significand exponent =>
    let sign := if negative then ['-'] else []
    if significand = 0 then sign ++ "0.0".toList
    else
      let decimal := Binary64.shortest significand exponent
      let digits := Nat.toDigits 10 decimal.significand
      let place := decimal.exponent + digits.length - 1
      if style.positionalFrom ≤ place ∧ place < style.positionalBefore then
        sign ++ positional digits place
      else sign ++ scientific digits place

end RealStyle

/-- A number with a fixed count of decimal places, the exact value rounded and a tie going to the
even digit. -/
def fixedText (places : Nat) : Binary64 → List Char
  | .nan => "nan".toList
  | .infinite negative => (if negative then ['-'] else []) ++ "inf".toList
  | .finite negative significand exponent =>
    let (num, den) := Binary64.magnitude significand exponent
    let scaled := roundQuotient (num * Nat.pow 10 places) den
    let fraction := Nat.toDigits 10 (scaled % Nat.pow 10 places)
    (if negative then ['-'] else []) ++ Nat.toDigits 10 (scaled / Nat.pow 10 places) ++
      '.' :: List.replicate (places - fraction.length) '0' ++ fraction

end Screencast
