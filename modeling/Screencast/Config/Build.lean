import Screencast.Config.Basic
import Screencast.Config.Error

/-!
# Checking options

`Config.build` makes a configuration of the options that are given and the defaults of the others.
Options are checked in a fixed order, and the first fault found is the one reported.
-/

namespace Screencast.Config

/-- The worst quality. -/
def greatestQuality : Nat := 30

/-- The value of an option: the given one or else the default one. -/
def valueOf (options : List (Text × Json)) (name : String) : Json :=
  (Json.find? name options).getD ((Json.find? name defaults).getD .null)

/-- An option that has to be an integer and not less than the least one. -/
def integerOf (options : List (Text × Json)) (name : String) (least : Int) :
    Except ConfigError Int :=
  match valueOf options name with
  | .int n => if n < least then .error (.integer name least (.int n)) else .ok n
  | value => .error (.integer name least value)

/-- An integer option that is never negative. -/
def naturalOf (options : List (Text × Json)) (name : String) (least : Nat) :
    Except ConfigError Nat :=
  (integerOf options name least).map Int.toNat

/-- The frame rate, which is not zero and not negative. -/
def frameRateOf (options : List (Text × Json)) : Except ConfigError Number :=
  let value := valueOf options "fps"
  match value.number? with
  | some fps => if fps.isPositive || fps.isNan then .ok fps else .error (.frameRate value)
  | none => .error (.frameRate value)

/-- The renderer for files whose name says nothing else. -/
def rendererOf (options : List (Text × Json)) : Except ConfigError Renderer :=
  match (valueOf options "renderer").string?.bind Renderer.ofName? with
  | some renderer => .ok renderer
  | none => .error (.renderer (Renderer.all.map Renderer.extension))

/-- The seed: an integer, a truth value, or nothing. -/
def seedOf (options : List (Text × Json)) : Except ConfigError Json :=
  match valueOf options "seed" with
  | .int n => .ok (.int n)
  | .bool b => .ok (.bool b)
  | .null => .ok .null
  | _ => .error .seed

/-- The names of given options that do not exist, in increasing order. -/
def unknownNames (options : List (Text × Json)) : List Text :=
  ((options.map Prod.fst).filter fun name => (Json.find? name defaults).isNone).mergeSort
    fun a b => !b.precedes a

/-- The configuration of the given options. -/
def build (options : List (Text × Json)) : Except ConfigError Config := do
  let unknown := unknownNames options
  if unknown ≠ [] then throw (.unknown unknown)
  let lineCount ← naturalOf options "line_count" 1
  let cursorBlink ← naturalOf options "cursor_blink_ms" 0
  let lineNumberWidth ← naturalOf options "line_number_width" 0
  let typingSpeed ← naturalOf options "typing_speed_ms" 0
  let quality ← naturalOf options "quality" 1
  let repetitions ← integerOf options "repeat" (-1)
  let endDelay ← naturalOf options "end_delay_ms" 0
  let width ← naturalOf options "width" 1
  let fontSize ← naturalOf options "font_size" 1
  let lineHeight ← naturalOf options "line_height" 1
  let cellWidth ← naturalOf options "cell_width" 1
  let paddingX ← naturalOf options "padding_x" 0
  let paddingY ← naturalOf options "padding_y" 0
  let fps ← frameRateOf options
  if greatestQuality < quality then throw (.quality greatestQuality)
  let renderer ← rendererOf options
  let seed ← seedOf options
  let value := valueOf options
  return {
    fps, lineCount, cursorBlink, lineNumberWidth, typingSpeed, quality, repetitions, renderer
    seed, endDelay, width, fontSize, lineHeight, cellWidth, paddingX, paddingY
    cursorGlyph := value "cursor_glyph"
    lineNumbers := value "line_numbers"
    title := value "title"
    fontFamily := value "font_family"
    fontPath := value "font_path"
    foreground := value "foreground"
    background := value "background"
    castCommand := value "cast_command" }

end Screencast.Config
