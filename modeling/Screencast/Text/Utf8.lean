/-!
# Decoding UTF-8 as it arrives

The decoder reads one byte at a time and keeps what a character still lacks, so that text cut
anywhere decodes as a whole (`run_append`).  Bytes that cannot continue a character are answered by
one replacement character for each longest well-formed beginning.
-/

namespace Screencast.Text.Utf8

/-- Where the decoder stands between two bytes. -/
inductive State where
  /-- Between two characters. -/
  | start
  /-- Inside a character: the bytes still lacking, the bits read, and the range that the next byte
  has to lie in. -/
  | inside (lacking : Nat) (bits : Nat) (low high : Nat)
  /-- After two bytes that begin half of a pair of surrogates.  They are no text, but that is told
  only when something follows. -/
  | half
  deriving DecidableEq, Repr, Inhabited

/-- Stands for bytes that are no text. -/
def replacement : Char := Char.ofNat 0xfffd

/-- Reads the first byte of a character. -/
def first (byte : Nat) : State × List Char :=
  if byte < 0x80 then (.start, [Char.ofNat byte])
  else if byte < 0xc2 then (.start, [replacement])
  else if byte < 0xe0 then (.inside 1 (byte % 0x20) 0x80 0xbf, [])
  else if byte = 0xe0 then (.inside 2 0 0xa0 0xbf, [])
  else if byte = 0xed then (.inside 2 0xd 0x80 0x9f, [])
  else if byte < 0xf0 then (.inside 2 (byte % 0x10) 0x80 0xbf, [])
  else if byte = 0xf0 then (.inside 3 0 0x90 0xbf, [])
  else if byte < 0xf4 then (.inside 3 (byte % 8) 0x80 0xbf, [])
  else if byte = 0xf4 then (.inside 3 4 0x80 0x8f, [])
  else (.start, [replacement])

/-- Reads one byte.  A byte that does not continue the character ends it and begins the next. -/
def step : State → Nat → State × List Char
  | .start, byte => first byte
  | .inside lacking bits low high, byte =>
    if low ≤ byte ∧ byte ≤ high then
      let bits := bits * 0x40 + byte % 0x40
      if lacking ≤ 1 then (.start, [Char.ofNat bits])
      else (.inside (lacking - 1) bits 0x80 0xbf, [])
    else if high = 0x9f ∧ 0xa0 ≤ byte ∧ byte ≤ 0xbf then (.half, [])
    else
      let (state, text) := first byte
      (state, replacement :: text)
  | .half, byte =>
    let (state, text) := first byte
    (state, replacement :: replacement :: text)

/-- Reads bytes from a state; the text of an unfinished character is not given out. -/
def run (state : State) : List Nat → State × List Char
  | [] => (state, [])
  | byte :: rest =>
    let (next, text) := step state byte
    let (last, more) := run next rest
    (last, text ++ more)

/-- Cutting the bytes changes nothing. -/
theorem run_append (state : State) (xs ys : List Nat) :
    run state (xs ++ ys) =
      ((run (run state xs).1 ys).1, (run state xs).2 ++ (run (run state xs).1 ys).2) := by
  induction xs generalizing state with
  | nil => simp [run]
  | cons byte rest ih => simp [run, ih, List.append_assoc]

end Screencast.Text.Utf8
