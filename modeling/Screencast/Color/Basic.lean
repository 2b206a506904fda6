/-!
# Colors

A color is what its red, green and blue parts make of it.  Those of a screen lie between 0 and 255,
but a color may be written with parts outside.
-/

namespace Screencast

structure Color where
  red : Int
  green : Int
  blue : Int
  deriving DecidableEq, Repr, Inhabited

namespace Color

/-- The color whose parts are the last three bytes of a number. -/
def ofNat (n : Nat) : Color := ⟨n / 0x10000 % 0x100, n / 0x100 % 0x100, n % 0x100⟩

/-- Whether a signed word of so many bits holds an integer. -/
def fitsWord (bits : Nat) (n : Int) : Bool :=
  -(Nat.pow 2 (bits - 1) : Nat) ≤ n && n < (Nat.pow 2 (bits - 1) : Nat)

/-- Whether a color can be used for drawing: its red part is taken as a word of 64 bits, the others
as words of 32. -/
def isDrawable (color : Color) : Bool :=
  fitsWord 64 color.red && fitsWord 32 color.green && fitsWord 32 color.blue

end Color

end Screencast
