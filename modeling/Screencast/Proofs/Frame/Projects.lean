import Screencast.Frame.Projection

/-!
# Which configurations can show anything

Whether a buffer can be shown depends neither on the buffer nor on the number of the frame: with a text
as cursor, only the width of line numbers and the interval of the blinking cursor can be out of range.
-/

namespace Screencast

/-- A configuration with which every buffer can be shown. -/
structure Config.Projects (config : Config) : Prop where
  /-- Lines with their numbers fit into the memory. -/
  numbers : config.lineNumbers.isSet = true → config.lineNumberWidth ≤ Text.mostCharacters
  /-- A cursor that blinks has an interval. -/
  blink : config.cursorGlyph.isSet = true → config.cursorBlink ≠ 0 →
    ∃ interval, config.blinkFrames = .ok interval

namespace Frame

variable {config : Config}

theorem window_isOk_iff (lines : Frame) :
    (∃ frame, window config lines = .ok frame) ↔
      (config.lineNumbers.isSet = true → config.lineNumberWidth ≤ Text.mostCharacters) := by
  have hlimit : Text.mostCharacters < Text.sizeLimit := by decide
  unfold window
  cases config.lineNumbers.isSet with
  | false => exact iff_of_true ⟨_, rfl⟩ nofun
  | true =>
      simp only [Bool.not_true, Bool.false_eq_true, if_false, true_imp_iff]
      by_cases hrange : Text.sizeLimit ≤ config.lineNumberWidth
      · rw [if_pos hrange]
        refine iff_of_false (fun ⟨_, h⟩ => nomatch h) ?_
        omega
      · rw [if_neg hrange, ← Text.checkSize_eq_ok_iff]
        cases Text.checkSize config.lineNumberWidth with
        | error fault => exact iff_of_false (fun ⟨_, h⟩ => nomatch h) nofun
        | ok _ => exact iff_of_true ⟨_, rfl⟩ rfl

end Frame

namespace Config

variable {config : Config}

theorem cursorVisible_isOk_iff (count : Int) :
    (∃ visible, config.cursorVisible count = .ok visible) ↔
      (config.cursorGlyph.isSet = true → config.cursorBlink ≠ 0 →
        ∃ interval, config.blinkFrames = .ok interval) := by
  unfold cursorVisible
  cases config.cursorGlyph.isSet with
  | false => exact iff_of_true ⟨_, rfl⟩ nofun
  | true =>
      by_cases hblink : config.cursorBlink = 0
      · simp [hblink]
      · cases config.blinkFrames with
        | error error => simp [hblink, bind, Except.bind]
        | ok interval => simp [hblink, bind, Except.bind, pure, Except.pure]

end Config

/-- Every buffer can be shown at every number of frames, or none can be at any. -/
theorem project_isOk_iff {config : Config} {glyph : Text} (hglyph : config.cursorGlyph = .string glyph)
    (buffer : Text) (count : Int) :
    (∃ frame, project config buffer count = .ok frame) ↔ config.Projects := by
  have hviews : config.Projects ↔
      (∃ visible, config.cursorVisible count = .ok visible) ∧
        (config.lineNumbers.isSet = true → config.lineNumberWidth ≤ Text.mostCharacters) := by
    rw [Config.cursorVisible_isOk_iff]
    exact ⟨fun h => ⟨h.blink, h.numbers⟩, fun h => ⟨h.2, h.1⟩⟩
  rw [hviews]
  unfold project Frame.Views.at
  cases config.cursorVisible count with
  | error error => exact iff_of_false nofun fun h => nomatch h.1
  | ok visible =>
      simp only [Except.ok.injEq, exists_eq', true_and]
      cases visible with
      | false => exact Frame.window_isOk_iff _
      | true =>
          simp only [Frame.views, Frame.withCursor, hglyph, if_true]
          exact Frame.window_isOk_iff _

end Screencast
