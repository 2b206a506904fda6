import Screencast.Text.Range

/-!
# Blanks

The characters that separate words, and the removal of blanks around a text.
-/

namespace Screencast.Text

/-- The blank characters of all scripts, the separators of files, groups, records and units among
them. -/
def blanks : List Range :=
  [(0x0009, 0x000d), (0x001c, 0x0020), (0x0085, 0x0085), (0x00a0, 0x00a0), (0x1680, 0x1680),
   (0x2000, 0x200a), (0x2028, 0x2029), (0x202f, 0x202f), (0x205f, 0x205f), (0x3000, 0x3000)]

def isBlank (c : Char) : Bool := inRanges blanks c.toNat

/-- Blanks around a numeral: those beyond ASCII, and of ASCII only tab to carriage return and the
space. -/
def isNumeralBlank (c : Char) : Bool :=
  isBlank c && !(0x1c ≤ c.toNat && c.toNat < 0x20)

variable {α : Type}

/-- Drops the elements at the end that satisfy a test. -/
def dropRightWhile (p : α → Bool) (text : List α) : List α :=
  (text.reverse.dropWhile p).reverse

/-- Drops the elements at both ends that satisfy a test. -/
def trimWhile (p : α → Bool) (text : List α) : List α :=
  dropRightWhile p (text.dropWhile p)

/-- The characters without the blanks around them. -/
def strip (text : List Char) : List Char := trimWhile isBlank text

theorem dropRightWhile_concat (p : α → Bool) (text : List α) (c : α) :
    dropRightWhile p (text ++ [c]) = if p c then dropRightWhile p text else text ++ [c] := by
  simp only [dropRightWhile, List.reverse_append, List.reverse_cons, List.reverse_nil,
    List.nil_append, List.singleton_append, List.dropWhile_cons]
  split <;> simp

theorem isEmpty_dropWhile (p : α → Bool) (text : List α) :
    (text.dropWhile p).isEmpty = text.all p := by
  induction text with
  | nil => rfl
  | cons c rest ih => cases h : p c <;> simp [h, ih]

/-- Nothing is left of a text exactly when all of it satisfies the test. -/
theorem isEmpty_trimWhile (p : α → Bool) (text : List α) :
    (trimWhile p text).isEmpty = text.all p := by
  rw [trimWhile, dropRightWhile, List.isEmpty_reverse, isEmpty_dropWhile, List.all_reverse]
  induction text with
  | nil => rfl
  | cons c rest ih => cases h : p c <;> simp [h, ih]

end Screencast.Text
