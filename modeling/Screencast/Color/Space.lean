import Screencast.Color.Basic
import Screencast.Number.Basic

/-!
# Color spaces

A color can be given by shares of 255, or by its hue with its saturation and either its lightness
or its brightness.  All of these are binary numbers between zero and one; what lies outside is
computed in the same way, and each operation is rounded.
-/

namespace Screencast.Color

/-- An integer as a binary number. -/
def real (n : Int) : Binary64 := .ofInt n

/-- The part of a number before its point.  The numbers of a color are finite. -/
def wholePart (x : Binary64) : Int := x.truncate.toOption.getD 0

/-- A share of 255, rounded. -/
def partOf (share : Binary64) : Int :=
  wholePart ((share.mul (real 255)).add ((real 1).div (real 2)))

def ofShares (red green blue : Binary64) : Color := ⟨partOf red, partOf green, partOf blue⟩

/-- The part of a color for a percentage. -/
def partOfPercentage (n : Nat) : Int :=
  wholePart (((real (n * 255)).div (real 100)).add ((real 1).div (real 2)))

/-- What a number exceeds the next integer below it by. -/
def fractionOf (x : Binary64) : Binary64 :=
  let rest := x.sub (real (wholePart x))
  if rest.isNegative then rest.add (real 1) else rest

/-- The share of one color part between a low and a high one, for the hue from where the part starts
to rise: it rises for a sixth of the circle, stays up for two, and falls for another. -/
def shareAt (low high hue : Binary64) : Binary64 :=
  let hue := fractionOf hue
  let twoThirds := (real 2).div (real 3)
  let between (x : Binary64) : Binary64 := low.add (((high.sub low).mul x).mul (real 6))
  if hue.lt ((real 1).div (real 6)) then between hue
  else if hue.lt ((real 1).div (real 2)) then high
  else if hue.lt twoThirds then between (twoThirds.sub hue)
  else low

/-- The color of a hue, saturation and lightness. -/
def ofLightness (hue saturation lightness : Binary64) : Color :=
  if saturation.isZero then ofShares lightness lightness lightness
  else
    let high :=
      if ((real 1).div (real 2)).lt lightness then
        (lightness.add saturation).sub (lightness.mul saturation)
      else lightness.mul ((real 1).add saturation)
    let low := ((real 2).mul lightness).sub high
    let third := (real 1).div (real 3)
    ofShares (shareAt low high (hue.add third)) (shareAt low high hue)
      (shareAt low high (hue.sub third))

/-- The color of a hue, saturation and brightness. -/
def ofBrightness (hue saturation brightness : Binary64) : Color :=
  if saturation.isZero then ofShares brightness brightness brightness
  else
    let place := hue.mul (real 6)
    let sector := wholePart place
    let rest := place.sub (real sector)
    let low := brightness.mul ((real 1).sub saturation)
    let falling := brightness.mul ((real 1).sub (saturation.mul rest))
    let rising := brightness.mul ((real 1).sub (saturation.mul ((real 1).sub rest)))
    match (sector % 6).toNat with
    | 0 => ofShares brightness rising low
    | 1 => ofShares falling brightness low
    | 2 => ofShares low brightness rising
    | 3 => ofShares low falling brightness
    | 4 => ofShares rising low brightness
    | _ => ofShares brightness low falling

end Screencast.Color
