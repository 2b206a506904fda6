/-!
# The size of texts

A text is only as long as the memory allows; `checkSize` says whether one can be made.
-/

namespace Screencast.Text

/-- Why a text cannot be made. -/
inductive SizeFault where
  /-- Its length is no signed word of 64 bits. -/
  | range
  | memory
  deriving DecidableEq, Repr

namespace SizeFault

def message : SizeFault → String
  | .range => "cannot fit 'int' into an index-sized integer"
  | .memory => ""

/-- The kind of error named when no message is shown. -/
def label : SizeFault → String
  | .range => "OverflowError"
  | .memory => "MemoryError"

end SizeFault

/-- Lengths from here on are no signed words of 64 bits. -/
def sizeLimit : Nat := Nat.pow 2 63

/-- The greatest length of a text. -/
def mostCharacters : Nat := Nat.pow 2 33

/-- Checks the length of a text that is to be made. -/
def checkSize (length : Nat) : Except SizeFault Unit :=
  if sizeLimit ≤ length then .error .range
  else if mostCharacters < length then .error .memory
  else .ok ()

theorem checkSize_eq_ok_iff (length : Nat) : checkSize length = .ok () ↔ length ≤ mostCharacters := by
  have hlimit : mostCharacters < sizeLimit := by decide
  unfold checkSize
  split
  · exact iff_of_false nofun (by omega)
  · split
    · exact iff_of_false nofun (by omega)
    · exact iff_of_true rfl (by omega)

end Screencast.Text
