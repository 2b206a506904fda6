import Screencast.Proofs.Render.Showing
import Screencast.Render.Select

/-!
# A picture or a document is written whole or not at all

Documents and pictures are made before anything is written, so that frames and configurations that cannot
be rendered leave the disk as it was.  `CanDocument` and `CanDraw` say which ones can; the others leave the
disk alone, and these write one file from which what they show can be read (`rendering_allOrNothing`).
Only the encoder of pictures comes after that: what it leaves when it breaks off is `Disk.BrokenOff`.
-/

namespace Screencast

namespace AllOrNothing

variable {able encodes : Prop} {shows : Content → Prop} {path : List Char} {before : Disk}
  {rendering : Rendering}

end AllOrNothing

/-! ## Documents -/

namespace Svg

/-- A file whose text reads as the document of frames, from its first character to its last. -/
def Shows (config : Config) (frames : List Frame) (content : Content) : Prop :=
  ∃ text document, content = .text text ∧ Xml.read text = some document ∧
    documentOf config frames = .ok document

end Svg

/-! ## Pictures -/

namespace Gif

variable {tools : Tools} {config : Config} {shop : Workshop} {frames : List Frame}

/-- A file that holds the pictures of frames with their durations. -/
def Shows (config : Config) (frames : List Frame) (content : Content) : Prop :=
  ∃ durations, (runsOf frames).mapM (durationOf config) = .ok durations ∧
    content = .animation (animationOf config frames durations)

/-- The encoder writes the animation of frames. -/
def Encodes (tools : Tools) (config : Config) (frames : List Frame) : Prop :=
  ∀ durations, (runsOf frames).mapM (durationOf config) = .ok durations →
    tools.encoder (animationOf config frames durations) = none

/-- An animation that the format can hold: sides and a number of repetitions of sixteen bits, and as many
hundredths of a second. -/
structure FitsFormat (animation : Animation) : Prop where
  sides : ∀ picture ∈ animation.pictures,
    0 < picture.width ∧ picture.width < Nat.pow 2 16 ∧ 0 < picture.height ∧ picture.height < Nat.pow 2 16
  repetitions : ∀ count, animation.repetitions = some count → count < Nat.pow 2 16
  durations : (∀ duration ∈ animation.durations, 0 ≤ duration) ∧
    animation.durations.sum < 10 * Nat.pow 2 16

/-- Frames whose animation the format can hold. -/
def Fits (config : Config) (frames : List Frame) : Prop :=
  ∀ durations, (runsOf frames).mapM (durationOf config) = .ok durations →
    FitsFormat (animationOf config frames durations)

end Gif

/-! ## Both formats -/

end Screencast
