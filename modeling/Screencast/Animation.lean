import Screencast.Json.Basic

/-!
# Drawn animations

An `Animation` is a sequence of pictures, each shown for a time.  A picture is what was drawn on its
canvas: lines of text at places.
-/

namespace Screencast

/-- A line of text drawn on a picture; the place is that of its upper left corner. -/
structure Label where
  x : Nat
  y : Nat
  text : Text
  color : Json
  deriving Inhabited, Repr

/-- A canvas with the texts drawn on it in order, reduced to a number of colors. -/
structure Picture where
  width : Nat
  height : Nat
  background : Json
  labels : List Label
  colors : Nat
  deriving Inhabited, Repr

/-- Pictures, the milliseconds that each one is shown, and how often the whole repeats: zero for
ever, and nothing for once. -/
structure Animation where
  pictures : List Picture
  durations : List Int
  repetitions : Option Nat
  deriving Inhabited, Repr

end Screencast
