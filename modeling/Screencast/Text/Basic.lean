/-!
# Texts

A `Text` is a list of code points.  Nearly all of them are characters.  A surrogate is one half of a
pair that stands for a character as a whole; alone it stands for none.  Data may hold such halves,
so that they can get into every text that is made of data, but they cannot leave the program.
-/

namespace Screencast

/-- A code point. -/
inductive CodePoint where
  | char (c : Char)
  /-- The surrogates are counted from zero. -/
  | surrogate (index : Fin 0x800)
  deriving DecidableEq, Repr, Inhabited

/-- A text by its code points. -/
abbrev Text := List CodePoint

namespace CodePoint

instance : Coe Char CodePoint := ⟨.char⟩

/-- The number of the first surrogate. -/
def firstSurrogate : Nat := 0xd800

/-- The number of a code point. -/
def toNat : CodePoint → Nat
  | .char c => c.toNat
  | .surrogate index => firstSurrogate + index.val

/-- The code point with a number. -/
def ofNat (n : Nat) : CodePoint :=
  if h : firstSurrogate ≤ n ∧ n < firstSurrogate + 0x800 then
    .surrogate ⟨n - firstSurrogate, by omega⟩
  else .char (Char.ofNat n)

def char? : CodePoint → Option Char
  | .char c => some c
  | .surrogate _ => none

def isSurrogate : CodePoint → Bool
  | .char _ => false
  | .surrogate _ => true

/-- Whether a code point is a character that passes a test. -/
def satisfies (p : Char → Bool) : CodePoint → Bool
  | .char c => p c
  | .surrogate _ => false

theorem isSurrogate_of_satisfies {p : Char → Bool} {c : CodePoint} (h : c.satisfies p = true) :
    c.isSurrogate = false := by
  cases c with
  | char c => rfl
  | surrogate index => cases h

end CodePoint

namespace Text

/-- The text of characters. -/
def ofChars (chars : List Char) : Text := chars.map .char

def ofString (s : String) : Text := ofChars s.toList

instance : Coe String Text := ⟨ofString⟩

/-- The characters of a text; surrogates are left out. -/
def chars (text : Text) : List Char := text.filterMap CodePoint.char?

/-- The characters of a text; the replacement character stands for each surrogate. -/
def replaced (text : Text) : List Char := text.map fun c => c.char?.getD (Char.ofNat 0xfffd)

/-- Whether a text stands before another one in the order of their code points. -/
def precedes (first second : Text) : Bool := first.lex second fun a b => a.toNat < b.toNat

/-- The text as a string, if it has no surrogates. -/
def string? (text : Text) : Option String := (text.mapM CodePoint.char?).map String.ofList

theorem chars_ofChars (cs : List Char) : chars (ofChars cs) = cs := by
  simp [chars, ofChars, List.filterMap_map, Function.comp_def, CodePoint.char?]

theorem ofString_append (first second : String) :
    ofString (first ++ second) = ofString first ++ ofString second := by
  simp [ofString, ofChars]

theorem ofChars_chars {text : Text} (h : ∀ c ∈ text, c.isSurrogate = false) :
    ofChars text.chars = text := by
  induction text with
  | nil => rfl
  | cons c rest ih =>
    cases c with
    | char c => simpa [chars, ofChars, CodePoint.char?] using ih fun c hc => h c (by simp [hc])
    | surrogate index => simp [CodePoint.isSurrogate] at h

end Text

end Screencast
