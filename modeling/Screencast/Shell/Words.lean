import Screencast.Text.Basic

/-!
# Words of a command line

`words` cuts a command line into words as a shell does: blanks separate them, quotes keep blanks
together, and a backslash takes the meaning of the character after it away.
-/

namespace Screencast.Shell

/-- Why a command line has no words. -/
inductive WordsError where
  /-- A quote is not closed. -/
  | openQuote
  /-- Nothing follows a backslash. -/
  | openEscape
  deriving DecidableEq, Repr

/-- Where the reading stands between two characters. -/
inductive State where
  | plain
  /-- After a backslash outside quotes. -/
  | escaped
  | singleQuoted
  | doubleQuoted
  /-- After a backslash inside double quotes. -/
  | escapedQuoted
  deriving DecidableEq, Repr

/-- The characters between words. -/
def isSeparator (c : CodePoint) : Bool :=
  c.satisfies fun c => c = ' ' || c = '\t' || c = '\r' || c = '\n'

/-- Reads on from a state; `word` is the word begun, if there is one. -/
def wordsFrom (state : State) (word : Option Text) : Text → Except WordsError (List Text)
  | [] =>
    match state with
    | .plain => .ok word.toList
    | .escaped | .escapedQuoted => .error .openEscape
    | .singleQuoted | .doubleQuoted => .error .openQuote
  | c :: rest =>
    let begun := word.getD []
    match state with
    | .plain =>
      if isSeparator c then (wordsFrom .plain none rest).map (word.toList ++ ·)
      else if c = .char '\\' then wordsFrom .escaped word rest
      else if c = .char '\'' then wordsFrom .singleQuoted (some begun) rest
      else if c = .char '"' then wordsFrom .doubleQuoted (some begun) rest
      else wordsFrom .plain (some (begun ++ [c])) rest
    | .escaped => wordsFrom .plain (some (begun ++ [c])) rest
    | .singleQuoted =>
      if c = .char '\'' then wordsFrom .plain word rest
      else wordsFrom .singleQuoted (some (begun ++ [c])) rest
    | .doubleQuoted =>
      if c = .char '"' then wordsFrom .plain word rest
      else if c = .char '\\' then wordsFrom .escapedQuoted word rest
      else wordsFrom .doubleQuoted (some (begun ++ [c])) rest
    | .escapedQuoted =>
      -- inside quotes only the quote and the backslash can be escaped
      let kept : Text := if c = .char '"' ∨ c = .char '\\' then [c] else [.char '\\', c]
      wordsFrom .doubleQuoted (some (begun ++ kept)) rest

/-- The words of a command line. -/
def words (line : Text) : Except WordsError (List Text) :=
  wordsFrom .plain none line

end Screencast.Shell
