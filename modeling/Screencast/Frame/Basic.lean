import Screencast.Text.Basic

/-!
# Frames

A `Frame` is what the screen shows during one tick of the recording: its lines from top to bottom.
-/

namespace Screencast

/-- The lines on the screen. -/
abbrev Frame := List Text

end Screencast
