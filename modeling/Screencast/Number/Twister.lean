import Screencast.Number.Binary64

/-!
# A reproducible source of chance

`Twister` is a generator of pseudo-random numbers with 624 words of 32 bits as its state.  Two
generators with the same seed give the same numbers.
-/

namespace Screencast

/-- The state of a generator: its words, and how many of them have been used. -/
structure Twister where
  words : Array UInt32
  used : Nat
  deriving Inhabited, Repr

namespace Twister

/-- Number of words. -/
def size : Nat := 624

/-- Distance of the words that are mixed. -/
def shift : Nat := 397

def word (words : Array UInt32) (i : Nat) : UInt32 := words.getD i 0

/-- A word with its upper bits mixed into the lower ones. -/
def stirred (w : UInt32) : UInt32 := w ^^^ (w >>> 30)

/-- Words that one number determines. -/
def ofWord (seed : UInt32) : Array UInt32 :=
  (List.range (size - 1)).foldl
    (fun words i => words.push (1812433253 * stirred (word words i) + (i + 1).toUInt32)) #[seed]

/-- The place after a place; the words form a ring without its first one, which repeats the
last. -/
def advance (words : Array UInt32) (i : Nat) : Array UInt32 × Nat :=
  if i + 1 < size then (words, i + 1) else (words.setIfInBounds 0 (word words (size - 1)), 1)

/-- Mixes a key into words. -/
def mixKey (key : Array UInt32) : Nat → Nat → Nat → Array UInt32 → Array UInt32 × Nat
  | 0, i, _, words => (words, i)
  | n + 1, i, j, words =>
    let mixed := (word words i ^^^ (stirred (word words (i - 1)) * 1664525)) + word key j +
      j.toUInt32
    let (words, next) := advance (words.setIfInBounds i mixed) i
    mixKey key n next (if j + 1 < key.size then j + 1 else 0) words

/-- Mixes the words among themselves. -/
def mixPlaces : Nat → Nat → Array UInt32 → Array UInt32
  | 0, _, words => words
  | n + 1, i, words =>
    let mixed := (word words i ^^^ (stirred (word words (i - 1)) * 1566083941)) - i.toUInt32
    let (words, next) := advance (words.setIfInBounds i mixed) i
    mixPlaces n next words

/-- The digits of a seed to the base `2 ^ 32`, the lowest first; at least one. -/
def seedWords (seed : Nat) : Array UInt32 :=
  let count := max 1 ((seed.log2 + 32) / 32)
  ((List.range count).map fun i => (seed >>> (32 * i)).toUInt32).toArray

/-- The generator of a seed. -/
def ofSeed (seed : Nat) : Twister :=
  let key := seedWords seed
  let (words, i) := mixKey key (max size key.size) 1 0 (ofWord 19650218)
  ⟨(mixPlaces (size - 1) i words).setIfInBounds 0 0x80000000, size⟩

/-- The word that replaces a word, made of it, the next one and a distant one. -/
def renewed (w next distant : UInt32) : UInt32 :=
  let y := (w &&& 0x80000000) ||| (next &&& 0x7fffffff)
  distant ^^^ (y >>> 1) ^^^ (if y &&& 1 = 0 then 0 else 0x9908b0df)

/-- Renews all words. -/
def renew (words : Array UInt32) : Array UInt32 :=
  (List.range size).foldl
    (fun words i => words.setIfInBounds i
      (renewed (word words i) (word words ((i + 1) % size)) (word words ((i + shift) % size))))
    words

/-- Spreads the bits of a word. -/
def tempered (w : UInt32) : UInt32 :=
  let w := w ^^^ (w >>> 11)
  let w := w ^^^ ((w <<< 7) &&& 0x9d2c5680)
  let w := w ^^^ ((w <<< 15) &&& 0xefc60000)
  w ^^^ (w >>> 18)

/-- The next 32 bits. -/
def next32 (state : Twister) : UInt32 × Twister :=
  let state := if size ≤ state.used then ⟨renew state.words, 0⟩ else state
  (tempered (word state.words state.used), { state with used := state.used + 1 })

/-- The next number from zero to below one, a multiple of `2 ^ -53`. -/
def next (state : Twister) : Binary64 × Twister :=
  let (high, state) := state.next32
  let (low, state) := state.next32
  (.ofRatio false ((high >>> 5).toNat * Nat.pow 2 26 + (low >>> 6).toNat) (Nat.pow 2 53), state)

end Twister

end Screencast
