import Screencast.Proofs.Disk.Folders
import Screencast.Proofs.Render.Checks
import Screencast.Render.Gif

/-!
# Which frames can be drawn as pictures

A font that is not found and a background that is no color are reported.  What else cannot be drawn
ends the program: the path of a font that is no path, a picture that is too large, a color of the text
that is none, a duration that is no number, and whatever the library breaks off with.
-/

namespace Screencast

theorem Workshop.draw_draw (strokes later : List Stroke) (shop : Workshop) :
    (shop.draw strokes).draw later = shop.draw (strokes ++ later) := by
  have hstrokes : shop.strokes ++ strokes ++ later = shop.strokes ++ (strokes ++ later) :=
    Array.toList_inj.mp (by simp)
  simp only [draw, hstrokes]

theorem Workshop.draw_nil (shop : Workshop) : shop.draw [] = shop := by
  simp [Workshop.draw]

namespace Gif

variable {config : Config}

/-! ## The font -/

/-- The name that a font is looked for by: that of the default font unless one is configured, which has
neither surrogates nor the null character. -/
inductive NamesFont (config : Config) : List Char → Prop
  | default (unset : config.fontPath = .null) : NamesFont config defaultFont.toList
  | configured (name : List Char) (set : config.fontPath = .string (.ofChars name))
    (legal : name.contains (Char.ofNat 0) = false) : NamesFont config name

/-- A font that can be looked for, with or without success. -/
def SeeksFont (tools : Tools) (config : Config) (disk : Disk) : Prop :=
  ∃ name, NamesFont config name ∧ ∀ label, tools.font disk name config.fontSize ≠ .broken label

/-- A canvas that can be made. -/
structure FitsCanvas (config : Config) : Prop where
  size : checkSize config.width config.height = .ok ()
  background : checkColor config.background = .ok ()

/-- A text that can be drawn. -/
structure FitsLabel (tools : Tools) (label : Label) : Prop where
  color : checkColor label.color = .ok ()
  number : ∃ x, Number.toReal (.int label.x) = .ok x
  word : Color.fitsWord 64 label.x = true
  lettering : tools.lettering label = none

/-- The picture of a frame can be drawn: its canvas and its texts. -/
def Draws (tools : Tools) (config : Config) (frame : Frame) : Prop :=
  FitsCanvas config ∧ ∀ label ∈ (pictureOf config frame).labels, FitsLabel tools label

/-- What is done to draw a picture. -/
def strokesOf (picture : Picture) : List Stroke :=
  .canvas picture.width picture.height :: picture.labels.map .label ++ [.palette picture.colors]

theorem drawLabels_eq_ok {tools : Tools} {labels : List Label} {shop drawn : Workshop}
    (h : drawLabels tools labels shop = (drawn, .ok ())) : drawn = shop.draw (labels.map .label) := by
  induction labels generalizing shop with
  | nil =>
      cases h
      exact (Workshop.draw_nil _).symm
  | cons label rest ih =>
      rw [drawLabels] at h
      split at h
      · cases h
      · rw [ih h, Workshop.draw_draw]
        rfl

theorem drawFrame_eq_ok {tools : Tools} {frame : Frame} {shop drawn : Workshop} {picture : Picture}
    (h : drawFrame tools config frame shop = (drawn, .ok picture)) :
    picture = pictureOf config frame ∧ drawn = shop.draw (strokesOf picture) := by
  simp only [drawFrame] at h
  split at h
  · cases h
  · rcases hlabels : drawLabels tools (pictureOf config frame).labels
        (shop.draw [.canvas (pictureOf config frame).width (pictureOf config frame).height])
      with ⟨lettered, failure | done⟩
    · rw [hlabels] at h
      cases h
    · rw [hlabels] at h
      cases h
      refine ⟨rfl, ?_⟩
      rw [drawLabels_eq_ok hlabels, Workshop.draw_draw, Workshop.draw_draw]
      rfl

/-- Drawing runs draws the picture of each of them, one after the other. -/
theorem drawRuns_eq_ok {tools : Tools} {runs : List Run} {shop drawn : Workshop} {pictures : List Picture}
    (h : drawRuns tools config runs shop = (drawn, .ok pictures)) :
    pictures = runs.map (fun run => pictureOf config run.frame) ∧
      drawn = shop.draw (pictures.flatMap strokesOf) := by
  induction runs generalizing shop pictures with
  | nil =>
      simp only [drawRuns, Prod.mk.injEq, Except.ok.injEq] at h
      obtain ⟨rfl, rfl⟩ := h
      exact ⟨rfl, (Workshop.draw_nil shop).symm⟩
  | cons run rest ih =>
      rw [drawRuns] at h
      rcases hfirst : drawFrame tools config run.frame shop with ⟨first, failure | picture⟩
      · rw [hfirst] at h
        cases h
      · rcases hrest : drawRuns tools config rest first with ⟨last, failure | others⟩
        · simp only [hfirst, hrest] at h
          cases h
        · simp only [hfirst, hrest] at h
          cases h
          obtain ⟨hpicture, hdrawn⟩ := drawFrame_eq_ok hfirst
          obtain ⟨hothers, hlast⟩ := ih hrest
          refine ⟨by rw [List.map_cons, ← hpicture, ← hothers], ?_⟩
          rw [hlast, hdrawn, Workshop.draw_draw, List.flatMap_cons]

/-- The animation of frames whose runs are shown for these times. -/
def animationOf (config : Config) (frames : List Frame) (durations : List Int) : Animation where
  pictures := (runsOf frames).map fun run => pictureOf config run.frame
  durations := durations
  repetitions := repetitionsOf config

/-- An animation that was saved was written by the encoder. -/
theorem save_eq_ok {tools : Tools} {animation : Animation} {path : List Char} {shop saved : Workshop}
    (h : save tools path animation shop = (saved, .ok ())) :
    tools.encoder animation = none ∧
      (shop.draw [.save path animation]).save path (.animation animation) = (saved, .ok ()) := by
  unfold save at h
  cases hmade : shop.disk.makeFolderOf path with
  | error error =>
      rw [hmade] at h
      cases h
  | ok made =>
      simp only [hmade] at h
      cases hencoder : tools.encoder animation with
      | none =>
          simp only [hencoder] at h
          refine ⟨rfl, ?_⟩
          rw [Workshop.save, show (shop.draw [.save path animation]).disk = shop.disk from rfl, hmade]
          exact h
      | some label =>
          simp only [hencoder] at h
          split at h <;> cases h

/-- Frames that can be drawn: the font can be looked for and, if it is there, the background is no color
at all, or all pictures can be drawn and have durations, and the encoder writes them. -/
structure Settled (tools : Tools) (config : Config) (shop : Workshop) (frames : List Frame) : Prop where
  font : SeeksFont tools config shop.disk
  pictures : (loadFont tools config shop).2 = .ok () →
    checkColor config.background = .error .unknown ∨
      (∀ run ∈ runsOf frames, Draws tools config run.frame) ∧
        ∃ durations, (runsOf frames).mapM (durationOf config) = .ok durations ∧
          tools.encoder (animationOf config frames durations) = none

end Gif

end Screencast
