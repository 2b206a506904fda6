import Screencast.Color.Reader
import Screencast.Frame.Run
import Screencast.Render.Basic

/-!
# Drawing an animated picture

Each run of frames is one picture with a line of text for each line of its frame.  Nothing is
written before all pictures are drawn; what can still go wrong then is up to the encoder.
-/

namespace Screencast.Gif

/-- The font that is looked for when none is configured. -/
def defaultFont : String := "DejaVuSansMono.ttf"

/-- The number of colors for a quality. -/
def paletteSize (quality : Int) : Int := max 16 (256 - 8 * (quality - 1))

/-- Looks for the font.  A font that is configured has to be there; otherwise one that is built in
will do. -/
def loadFont (tools : Tools) (config : Config) (shop : Workshop) :
    Workshop × Except RenderFailure Unit :=
  match config.fontPath with
  | .null =>
    let sought := shop.draw [.font (.string defaultFont) config.fontSize]
    match tools.font shop.disk defaultFont.toList config.fontSize with
    | .done => (sought, .ok ())
    | .failed _ =>
      (sought.tell .debug s!"Font {defaultFont} not found, using Pillow default font", .ok ())
    | .broken label => (sought, .error (.tool label))
  | path =>
    (shop.draw [.font path config.fontSize],
      match path with
      | .string name =>
        match name.encode with
        | .error fault => .error (.encoding fault)
        | .ok name =>
          if name.contains (Char.ofNat 0) then .error (.disk ⟨.nullCharacter, name⟩)
          else
            match tools.font shop.disk name config.fontSize with
            | .done => .ok ()
            | .failed _ => .error (.reported (.font path))
            | .broken label => .error (.tool label)
      | .real _ | .array _ | .object _ => .error (.fontKind path.kindName)
      | path => .error (.reported (.font path)))

/-! ## Limits of pictures -/

/-- Checks a value that is to be used as a color: a text, an integer of 64 bits, or none at all. -/
def checkColor : Json → Except ColorFault Unit
  | .null | .bool _ => .ok ()
  | .int n => if Color.fitsWord 64 n then .ok () else .error .range
  | .string s =>
    match s.encode.toOption.bind Color.ofText? with
    | some color => if color.isDrawable then .ok () else .error .range
    | none => .error .unknown
  | value => .error (.kind value.kindName)

/-- The greatest width and height that can be given. -/
def longestSide : Nat := Nat.pow 2 31 - 1

/-- The greatest width of a picture: one less than a line of pixels of four bytes can be wide. -/
def widest : Nat := longestSide / 4 - 1

/-- The greatest number of pixels. -/
def mostPixels : Nat := Nat.pow 2 33

/-- Checks the size of a picture. -/
def checkSize (width height : Nat) : Except RenderFailure Unit :=
  if longestSide < width ∨ longestSide < height then .error .size
  else if widest < width ∨ mostPixels < width * height then .error .memory
  else .ok ()

/-- Checks a canvas.  Only a text that gives no color is noticed before the size. -/
def checkCanvas (width height : Nat) (background : Json) : Except RenderFailure Unit :=
  match checkColor background with
  | .error .unknown => .error (.reported .canvas)
  | checked => do
    checkSize width height
    checked.mapError .color

/-- Checks a text on a picture.  Its height is below that of the picture. -/
def checkLabel (tools : Tools) (label : Label) : Except RenderFailure Unit := do
  (checkColor label.color).mapError .color
  let _ ← (Number.toReal (.int label.x)).mapError .place
  if Color.fitsWord 64 label.x then
    match tools.lettering label with
    | none => return ()
    | some kind => .error (.tool kind)
  else .error .farPlace

/-! ## Pictures -/

/-- The lines of a frame as texts on a picture, the first of which has the given number. -/
def labelsFrom (config : Config) (index : Nat) : Frame → List Label
  | [] => []
  | line :: rest =>
    ⟨config.paddingX, config.paddingY + index * config.lineHeight, line, config.foreground⟩ ::
      labelsFrom config (index + 1) rest

/-- The picture of a frame. -/
def pictureOf (config : Config) (frame : Frame) : Picture where
  width := config.width
  height := config.height
  background := config.background
  labels := labelsFrom config 0 frame
  colors := (paletteSize config.quality).toNat

/-- Draws texts up to the first that fails. -/
def drawLabels (tools : Tools) : List Label → Workshop → Workshop × Except RenderFailure Unit
  | [], shop => (shop, .ok ())
  | label :: rest, shop =>
    match checkLabel tools label with
    | .error failure => (shop, .error failure)
    | .ok () => drawLabels tools rest (shop.draw [.label label])

/-- Draws the picture of a frame. -/
def drawFrame (tools : Tools) (config : Config) (frame : Frame) (shop : Workshop) :
    Workshop × Except RenderFailure Picture :=
  let picture := pictureOf config frame
  match checkCanvas picture.width picture.height picture.background with
  | .error failure => (shop, .error failure)
  | .ok () =>
    match drawLabels tools picture.labels (shop.draw [.canvas picture.width picture.height]) with
    | (shop, .error failure) => (shop, .error failure)
    | (shop, .ok ()) => (shop.draw [.palette picture.colors], .ok picture)

/-- Draws the pictures of runs up to the first failure. -/
def drawRuns (tools : Tools) (config : Config) :
    List Run → Workshop → Workshop × Except RenderFailure (List Picture)
  | [], shop => (shop, .ok [])
  | run :: rest, shop =>
    match drawFrame tools config run.frame shop with
    | (shop, .error failure) => (shop, .error failure)
    | (shop, .ok picture) =>
      match drawRuns tools config rest shop with
      | (shop, .error failure) => (shop, .error failure)
      | (shop, .ok pictures) => (shop, .ok (picture :: pictures))

/-- The milliseconds that a run is shown. -/
def durationOf (config : Config) (run : Run) : Except ArithmeticError Int := do
  ((← (Number.int run.length).toReal).mul config.frameDuration).round

/-- How often the pictures repeat. -/
def repetitionsOf (config : Config) : Option Nat :=
  if config.repetitions < 0 then none else some config.repetitions.toNat

/-- The runs that are drawn: one empty picture when there are none. -/
def runsOf (frames : List Frame) : List Run :=
  match Frame.runs frames with
  | [] => [⟨[], 1⟩]
  | runs => runs

/-- Writes an animation to a path.  An encoder that breaks off leaves a fragment in a file that was
there before; a new file is removed again. -/
def save (tools : Tools) (path : List Char) (animation : Animation) (shop : Workshop) :
    Workshop × Except RenderFailure Unit :=
  match shop.disk.makeFolderOf path with
  | .error error => (shop, .error (.disk error))
  | .ok disk =>
    let shop := { shop with disk }.draw [.save path animation]
    match tools.encoder animation with
    | none => shop.fill path (.animation animation)
    | some label =>
      match shop.fill path (.fragment animation) with
      | (shop, .error failure) => (shop, .error failure)
      | (filled, .ok ()) =>
        (if (disk.find? path).isSome then filled else shop, .error (.tool label))

/-- Draws frames as an animation and writes it to a path. -/
def render (tools : Tools) (config : Config) (path : List Char) (frames : List Frame)
    (shop : Workshop) : Rendering :=
  match loadFont tools config shop with
  | (shop, .error failure) => (shop, .error failure)
  | (shop, .ok ()) =>
    let runs := runsOf frames
    match drawRuns tools config runs shop with
    | (shop, .error failure) => (shop, .error failure)
    | (shop, .ok pictures) =>
      match runs.mapM (durationOf config) with
      | .error error => (shop, .error (.duration error))
      | .ok durations =>
        let (shop, saved) := save tools path ⟨pictures, durations, repetitionsOf config⟩ shop
        (shop, saved.map fun _ => path)

end Screencast.Gif
