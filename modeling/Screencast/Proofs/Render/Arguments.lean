import Screencast.Render.Cast

/-!
# The arguments of an external program

The words of a command are found before the paths are put into them.  A word of letters, doubled braces and
placeholders therefore becomes one argument, whatever the path holds, and nothing but its placeholders
depends on the path: `rasterize_invokes`.
-/

namespace Screencast.Cast

/-! ## Words with placeholders -/

/-- What stands for a path. -/
inductive Placeholder where
  | input
  | output
  deriving DecidableEq

namespace Placeholder

def name : Placeholder → Text
  | .input => "input"
  | .output => "output"

/-- The path that it stands for. -/
def path (recording : List Char) : Placeholder → Text
  | .input => .ofChars recording
  | .output => .ofChars (picturePath recording)

end Placeholder

/-- A piece of a word: a code point that is no brace, a brace written twice, or a placeholder in braces. -/
inductive Piece where
  | letter (c : CodePoint) (plain : c ≠ .char '{' ∧ c ≠ .char '}')
  | opening
  | closing
  | placeholder (which : Placeholder)

namespace Piece

/-- How a piece is written. -/
def source : Piece → Text
  | .letter c _ => [c]
  | .opening => [.char '{', .char '{']
  | .closing => [.char '}', .char '}']
  | .placeholder which => .char '{' :: which.name ++ [.char '}']

/-- What a piece becomes for a recording. -/
def filled (recording : List Char) : Piece → Text
  | .letter c _ => [c]
  | .opening => [.char '{']
  | .closing => [.char '}']
  | .placeholder which => which.path recording

def part : Piece → Template.Part
  | .letter c _ => .literal [c]
  | .opening => .literal [.char '{']
  | .closing => .literal [.char '}']
  | .placeholder which => .field ⟨which.name, none, []⟩

def isPlaceholder : Piece → Bool
  | .placeholder _ => true
  | _ => false

end Piece

/-- A word by its pieces. -/
abbrev Word := List Piece

namespace Word

def source (word : Word) : Text := word.flatMap Piece.source

def filled (recording : List Char) (word : Word) : Text := word.flatMap (Piece.filled recording)

end Word

/-! ## Filling a word -/

/-- Each piece is read as the part that it stands for. -/
theorem partsWithin_source (piece : Piece) (fuel : Nat) (rest : Text) :
    Template.partsWithin (fuel + 1) (piece.source ++ rest)
      = piece.part :: Template.partsWithin fuel rest := by
  cases piece with
  | letter c plain =>
      rw [Piece.source, List.singleton_append, Template.partsWithin]
      · rfl
      · exact fun _ hc _ => plain.1 hc
      · exact fun _ hc _ => plain.2 hc
      · exact plain.2
      · exact plain.1
  | opening => rfl
  | closing => rfl
  | placeholder which =>
      have hsource : (Piece.placeholder which).source ++ rest
          = .char '{' :: (which.name ++ .char '}' :: rest) := by simp [Piece.source]
      rw [hsource]
      cases which <;> rfl

theorem length_source_pos (piece : Piece) : 0 < piece.source.length := by
  cases piece <;> simp [Piece.source]

theorem parts_source (word : Word) : Template.parts word.source = word.map Piece.part := by
  have hwithin : ∀ fuel, word.source.length ≤ fuel →
      Template.partsWithin fuel word.source = word.map Piece.part := by
    induction word with
    | nil => intro fuel _; cases fuel <;> rfl
    | cons piece rest ih =>
        intro fuel hfuel
        rw [Word.source, List.flatMap_cons, ← Word.source] at hfuel ⊢
        rw [List.length_append] at hfuel
        have hpositive := length_source_pos piece
        obtain ⟨fuel, rfl⟩ : ∃ less, fuel = less + 1 := ⟨fuel - 1, by omega⟩
        rw [partsWithin_source, ih fuel (by omega), List.map_cons]
  exact hwithin _ (Nat.le_refl _)

/-- The value of a placeholder is its path, whatever that holds. -/
theorem resolve_placeholder (recording : List Char) (which : Placeholder) :
    Template.resolve (commandValues recording) which.name = .ok (.text (which.path recording)) := by
  cases which <;> rfl

/-- An empty layout leaves a text as it is. -/
theorem arrange_nil (text : Text) : Template.arrange [] text = .ok text := by
  have hpad : Template.pad (.char ' ') (.char '<') 0 text = text := by simp [Template.pad]
  have harranged : Template.arrange [] text
      = .ok (Template.pad (.char ' ') (.char '<') 0 text) := rfl
  rw [harranged, hpad]

/-- The texts of the parts of a word, each placeholder being filled with its path. -/
theorem fillParts_word {fillField : Template.Field → Except TemplateError Text}
    {recording : List Char}
    (hfield : ∀ which : Placeholder,
      fillField ⟨which.name, none, []⟩ = .ok (which.path recording)) (word : Word) :
    Template.fillParts fillField (word.map Piece.part) = .ok (word.filled recording) := by
  induction word with
  | nil => rfl
  | cons piece rest ih =>
      rw [List.map_cons, Word.filled, List.flatMap_cons, ← Word.filled]
      cases piece with
      | letter | opening | closing =>
          rw [Piece.part, Template.fillParts, ih]
          rfl
      | placeholder which =>
          rw [Piece.part, Template.fillParts, hfield, ih]
          rfl

/-- A word is filled in one pass. -/
theorem fill_source (recording : List Char) (word : Word) :
    Template.fill (commandValues recording) word.source = .ok (word.filled recording) := by
  rw [Template.fill, Template.depth, Template.fillWithin, parts_source]
  refine fillParts_word (fun which => ?_) word
  simp only [resolve_placeholder]
  exact arrange_nil _

/-! ## The command -/

/-- Two arguments made of one word that are the same but for its placeholders. -/
inductive DifferInside : Word → Text → Text → Prop
  | nil : DifferInside [] [] []
  | same {word : Word} {first second : Text} (piece : Piece) (text : Text)
    (fixed : piece.isPlaceholder = false) (rest : DifferInside word first second) :
    DifferInside (piece :: word) (text ++ first) (text ++ second)
  | placeholder {word : Word} {first second : Text} (which : Placeholder)
    (here there : Text) (rest : DifferInside word first second) :
    DifferInside (.placeholder which :: word) (here ++ first) (there ++ second)

theorem differInside_filled (recording other : List Char) (word : Word) :
    DifferInside word (word.filled recording) (word.filled other) := by
  induction word with
  | nil => exact .nil
  | cons piece rest ih =>
      simp only [Word.filled, List.flatMap_cons]
      cases piece with
      | letter c plain => exact .same (.letter c plain) [c] rfl ih
      | opening => exact .same .opening [.char '{'] rfl ih
      | closing => exact .same .closing [.char '}'] rfl ih
      | placeholder which => exact .placeholder which (which.path recording) (which.path other) ih

/-- A command whose words consist of pieces has one argument for each word. -/
theorem arguments_eq {command : Text} {words : List Word}
    (hwords : Shell.words command = .ok (words.map Word.source)) (recording : List Char) :
    arguments command recording = .ok (words.map (Word.filled recording)) := by
  rw [arguments, hwords]
  change (words.map Word.source).mapM _ = _
  clear hwords
  induction words with
  | nil => rfl
  | cons word rest ih =>
      rw [List.map_cons, List.mapM_cons, fill_source, ih]
      rfl

/-- What a command of words runs for each recording. -/
structure Invokes (words : List Word) (run : List Char → List Text) : Prop where
  /-- There is a program to be run. -/
  program : ∀ recording, run recording ≠ []
  length : ∀ recording, (run recording).length = words.length
  argument : ∀ recording (i : Nat) (word : Word), words[i]? = some word →
    (run recording)[i]? = some (word.filled recording)
  differ : ∀ recording other (i : Nat) (word : Word) (first second : Text),
    words[i]? = some word → (run recording)[i]? = some first → (run other)[i]? = some second →
      DifferInside word first second

theorem invokes_filled {words : List Word} (hwords : words ≠ []) :
    Invokes words fun recording => words.map (Word.filled recording) where
  program _ := by simpa using hwords
  length _ := List.length_map _
  argument _ _ _ hword := by rw [List.getElem?_map, hword, Option.map_some]
  differ recording other i word first second hword hfirst hsecond := by
    rw [List.getElem?_map, hword, Option.map_some, Option.some_inj] at hfirst hsecond
    subst hfirst hsecond
    exact differInside_filled recording other word

/-- The words of a command are the arguments of the program, and the path of the recording takes the place
of placeholders in them. -/
theorem rasterize_invokes {command : Text} {words : List Word}
    (hcommand : Shell.words command = .ok (words.map Word.source)) (hwords : words ≠ []) :
    ∃ run, Invokes words run ∧ ∀ tools recording shop,
      (rasterize tools (.string command) recording shop).1.runs = shop.runs ++ [run recording] := by
  refine ⟨_, invokes_filled hwords, fun tools recording shop => ?_⟩
  simp only [rasterize, arguments_eq hcommand]
  split <;> rfl

/-- A command with quotes and doubled braces. -/
def quotedCommand : Text := "agg \"\x7binput\x7d\" \x7b\x7b\x7boutput\x7d\x7d\x7d"

/-- Its words. -/
def quotedWords : List Word :=
  [[.letter (.char 'a') (by decide), .letter (.char 'g') (by decide),
     .letter (.char 'g') (by decide)],
   [.placeholder .input],
   [.opening, .placeholder .output, .closing]]

theorem rasterize_invokes_quoted :
    Shell.words quotedCommand = .ok (quotedWords.map Word.source) ∧ quotedWords ≠ [] ∧
      quotedWords.map (Word.filled "a \" \x7boutput\x7d.cast".toList)
        = ["agg", "a \" \x7boutput\x7d.cast", "\x7ba \" \x7boutput\x7d.gif\x7d"].map Text.ofString ∧
      ∃ run, Invokes quotedWords run ∧ ∀ tools recording shop,
        (rasterize tools (.string quotedCommand) recording shop).1.runs
          = shop.runs ++ [run recording] :=
  have hwords : Shell.words quotedCommand = .ok (quotedWords.map Word.source) := rfl
  ⟨hwords, nofun, by decide +kernel, rasterize_invokes hwords nofun⟩

end Screencast.Cast
