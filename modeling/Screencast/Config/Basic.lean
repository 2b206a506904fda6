import Screencast.Json.Display

/-!
# The configuration of a recording

A `Config` holds the options of a recording.  Options that are checked have their own types; those
that only appear in texts keep the value they were given.  The sizes that follow from others are
functions of the configuration.
-/

namespace Screencast

/-- The kinds of files a recording is rendered to. -/
inductive Renderer where
  | gif
  | svg
  | cast
  deriving DecidableEq, Repr, Inhabited

namespace Renderer

/-- Its name among the options, and the extension of its files. -/
def extension : Renderer → String
  | .gif => "gif"
  | .svg => "svg"
  | .cast => "cast"

def all : List Renderer := [.gif, .svg, .cast]

def ofName? (name : Text) : Option Renderer :=
  all.find? fun renderer => Text.ofString renderer.extension = name

theorem ofName?_extension (r : Renderer) : ofName? r.extension = some r := by
  cases r <;> decide

end Renderer

/-- The options of a recording.  Durations are in milliseconds and lengths in pixels. -/
structure Config where
  /-- Frames per second of recorded time. -/
  fps : Number
  lineCount : Nat
  /-- Interval of the blinking cursor; zero keeps it shown. -/
  cursorBlink : Nat
  cursorGlyph : Json
  lineNumbers : Json
  lineNumberWidth : Nat
  /-- Least time between two keys. -/
  typingSpeed : Nat
  /-- From 1, the best, to 30. -/
  quality : Nat
  /-- How often an image repeats: zero for ever, a negative number once. -/
  repetitions : Int
  renderer : Renderer
  seed : Json
  /-- How long the last frame is held. -/
  endDelay : Nat
  title : Json
  width : Nat
  fontSize : Nat
  fontFamily : Json
  fontPath : Json
  lineHeight : Nat
  cellWidth : Nat
  paddingX : Nat
  paddingY : Nat
  foreground : Json
  background : Json
  castCommand : Json
  deriving Inhabited, Repr

namespace Config

/-- The options in their order with the values they have unless given. -/
def defaults : List (Text × Json) :=
  [("fps", .int 30), ("line_count", .int 20), ("cursor_blink_ms", .int 500),
   ("cursor_glyph", .string "█"), ("line_numbers", .bool false), ("line_number_width", .int 3),
   ("typing_speed_ms", .int 50), ("quality", .int 10), ("repeat", .int 0),
   ("renderer", .string "svg"), ("seed", .int 0), ("end_delay_ms", .int 2000),
   ("title", .string "termreplay"), ("width", .int 800), ("font_size", .int 16),
   ("font_family", .string "monospace"), ("font_path", .null), ("line_height", .int 20),
   ("cell_width", .int 10), ("padding_x", .int 10), ("padding_y", .int 20),
   ("foreground", .string "#f0f0f0"), ("background", .string "#000000"),
   ("cast_command", .string "agg \x7binput\x7d \x7boutput\x7d")]

/-- Duration of a frame in milliseconds. -/
def frameDuration (config : Config) : Binary64 :=
  match config.fps with
  | .int n => .ofRatio (n < 0) 1000 n.natAbs
  | .real x => (Binary64.ofInt 1000).div x

/-- Height of the canvas. -/
def height (config : Config) : Nat :=
  2 * config.paddingY + config.lineCount * config.lineHeight

/-- Number of character cells on a line. -/
def columns (config : Config) : Nat :=
  config.width / config.cellWidth

/-- The seed of the typing rhythm as a natural number, if there is one: its sign does not matter. -/
def seed? (config : Config) : Option Nat :=
  match config.seed with
  | .int n => some n.natAbs
  | .bool b => some b.toNat
  | _ => none

/-- The options and the sizes that follow from them, by name. -/
def fields (config : Config) : List (String × Json) :=
  [("fps", .ofNumber config.fps), ("line_count", .int config.lineCount),
   ("cursor_blink_ms", .int config.cursorBlink), ("cursor_glyph", config.cursorGlyph),
   ("line_numbers", config.lineNumbers), ("line_number_width", .int config.lineNumberWidth),
   ("typing_speed_ms", .int config.typingSpeed), ("quality", .int config.quality),
   ("repeat", .int config.repetitions), ("renderer", .string config.renderer.extension),
   ("seed", config.seed), ("end_delay_ms", .int config.endDelay), ("title", config.title),
   ("width", .int config.width), ("font_size", .int config.fontSize),
   ("font_family", config.fontFamily), ("font_path", config.fontPath),
   ("line_height", .int config.lineHeight), ("cell_width", .int config.cellWidth),
   ("padding_x", .int config.paddingX), ("padding_y", .int config.paddingY),
   ("foreground", config.foreground), ("background", config.background),
   ("cast_command", config.castCommand), ("ms_per_frame", .real config.frameDuration),
   ("height", .int config.height), ("columns", .int config.columns)]

end Config

end Screencast
