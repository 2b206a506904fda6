import Screencast.Text.Basic

/-!
# Lines

A text is its lines joined with line feeds: `splitLines` and `joinLines` undo each other, and a text
has one line more than it has line feeds.
-/

namespace Screencast.Text

variable {α : Type} [DecidableEq α]

/-- The pieces between the occurrences of a separator. -/
def splitAt (separator : α) : List α → List (List α)
  | [] => [[]]
  | c :: rest =>
    if c = separator then [] :: splitAt separator rest
    else
      match splitAt separator rest with
      | [] => [[c]]
      | piece :: pieces => (c :: piece) :: pieces

/-- The lines of a text. -/
def splitLines (text : Text) : List Text := splitAt (.char '\n') text

omit [DecidableEq α] in
/-- Pieces joined with a separator between neighbours. -/
def joinWith (separator : List α) : List (List α) → List α
  | [] => []
  | [piece] => piece
  | piece :: pieces => piece ++ separator ++ joinWith separator pieces

/-- Lines joined with line feeds. -/
def joinLines (lines : List Text) : Text := joinWith [.char '\n'] lines

/-- Line ends of all conventions become line feeds. -/
def normalizeLineEnds : List Char → List Char
  | '\r' :: '\n' :: rest => '\n' :: normalizeLineEnds rest
  | '\r' :: rest => '\n' :: normalizeLineEnds rest
  | c :: rest => c :: normalizeLineEnds rest
  | [] => []

/-- The lines of a text with their line feeds; the last one may lack it. -/
def linesWithEnds : List Char → List (List Char)
  | [] => []
  | c :: rest =>
    if c = '\n' then [c] :: linesWithEnds rest
    else
      match linesWithEnds rest with
      | [] => [[c]]
      | line :: lines => (c :: line) :: lines

/-- Whether a text occurs in another one. -/
def occursIn (part : List α) : List α → Bool
  | [] => part.isEmpty
  | c :: rest => part.isPrefixOf (c :: rest) || occursIn part rest

theorem splitAt_ne_nil (separator : α) (text : List α) : splitAt separator text ≠ [] := by
  cases text with
  | nil => simp [splitAt]
  | cons c rest =>
    simp only [splitAt]
    split
    · simp
    · split <;> simp

theorem joinWith_splitAt (separator : α) (text : List α) :
    joinWith [separator] (splitAt separator text) = text := by
  induction text with
  | nil => rfl
  | cons c rest ih =>
    rcases h : splitAt separator rest with _ | ⟨piece, pieces⟩
    · exact absurd h (splitAt_ne_nil separator rest)
    · rw [h] at ih
      by_cases hc : c = separator
      · simp only [splitAt, hc, if_true, h, joinWith, List.nil_append]
        simpa using ih
      · simp only [splitAt, hc, if_false, h]
        cases pieces with
        | nil => simpa [joinWith] using ih
        | cons next others => simpa [joinWith] using ih

/-- Lines joined again give the text. -/
theorem joinLines_splitLines (text : Text) : joinLines (splitLines text) = text :=
  joinWith_splitAt (CodePoint.char '\n') text

theorem length_splitLines (text : Text) :
    (splitLines text).length = text.count (.char '\n') + 1 := by
  induction text with
  | nil => rfl
  | cons c rest ih =>
    simp only [splitLines, splitAt] at ih ⊢
    split
    · next h => simp [h, ih]
    · next h =>
      rcases hs : splitAt (CodePoint.char '\n') rest with _ | ⟨piece, pieces⟩
      · exact absurd hs (splitAt_ne_nil _ rest)
      · rw [hs] at ih
        simpa [h] using ih

end Screencast.Text
