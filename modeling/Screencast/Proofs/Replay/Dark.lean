import Screencast.Proofs.Replay.Launching
import Screencast.Proofs.Replay.Reel
import Screencast.Proofs.Replay.Recut

/-!
# Replays that show nothing

A cursor that is no text can be shown only while it is hidden.  But its first phase is a visible one if
it has any, so nothing can be shown at the start then: every buffer can be shown at every number of
frames, or none can be at the first (`Config.projects_or_dark`).

In the second case a replay from the start records nothing, and it halts before it starts a command.
-/

namespace Screencast

/-- Nothing can be shown at the start. -/
def Config.Dark (config : Config) : Prop :=
  ∀ buffer, ∃ error, project config buffer 0 = .error error

namespace Config

variable {config : Config}

/-- A cursor that is hidden at the start is always hidden. -/
theorem cursorVisible_eq_false (h : config.cursorVisible 0 = .ok false) (count : Int) :
    config.cursorVisible count = .ok false := by
  unfold cursorVisible at h ⊢
  split at h
  · rw [if_pos (by assumption)]
  · next hset =>
    rw [if_neg hset]
    split at h
    · cases h
    · next hblink =>
      rw [if_neg hblink]
      cases hinterval : config.blinkFrames with
      | error error => simp [hinterval, bind, Except.bind] at h
      | ok interval =>
          -- there is no visible phase only if the interval is negative
          have hnegative : interval < 0 := by
            simpa [hinterval, bind, Except.bind, pure, Except.pure] using h
          have hone : max 1 interval = 1 := by omega
          simp only [bind, Except.bind, pure, Except.pure, hone, Int.emod_one]
          simp [hnegative]

theorem project_of_cursorVisible (h : config.cursorVisible 0 = .ok false) (buffer : Text)
    (count : Int) : project config buffer count = Frame.window config (Text.splitLines buffer) := by
  simp only [project, Frame.Views.at, cursorVisible_eq_false h, Frame.views, Bool.false_eq_true,
    if_false]

theorem dark_of_not_isOk (h : ∀ buffer, ¬∃ frame, project config buffer 0 = .ok frame) :
    config.Dark := by
  intro buffer
  cases hproject : project config buffer 0 with
  | error error => exact ⟨error, rfl⟩
  | ok frame => exact absurd ⟨frame, hproject⟩ (h buffer)

/-- Every buffer can be shown at every number of frames, or none can be at the first. -/
theorem projects_or_dark (config : Config) :
    (∀ buffer count, ∃ frame, project config buffer count = .ok frame) ∨ config.Dark := by
  cases hvisible : config.cursorVisible 0 with
  | error error =>
      exact .inr fun buffer => ⟨.arithmetic error, by simp only [project, Frame.Views.at, hvisible]⟩
  | ok visible =>
      cases visible with
      | false =>
          -- only the width of line numbers counts, whatever the buffer and the number of frames
          by_cases hnumbers :
              config.lineNumbers.isSet = true → config.lineNumberWidth ≤ Text.mostCharacters
          · refine .inl fun buffer count => ?_
            rw [project_of_cursorVisible hvisible]
            exact (Frame.window_isOk_iff _).mpr hnumbers
          · refine .inr (dark_of_not_isOk fun buffer h => hnumbers ?_)
            rw [project_of_cursorVisible hvisible] at h
            exact (Frame.window_isOk_iff _).mp h
      | true =>
          cases hglyph : config.cursorGlyph with
          | string glyph =>
              by_cases hprojects : config.Projects
              · exact .inl fun buffer count => (project_isOk_iff hglyph buffer count).mpr hprojects
              · exact .inr (dark_of_not_isOk fun buffer h =>
                  hprojects ((project_isOk_iff hglyph buffer 0).mp h))
          | _ =>
              refine .inr fun buffer => ⟨.glyph config.cursorGlyph.kindName, ?_⟩
              simp only [project, Frame.Views.at, hvisible, Frame.views, Frame.withCursor, hglyph,
                if_true]
              rfl

end Config

/-! ## Replays in the dark -/

namespace Config.Dark

open Stage

variable {setting : Setting} (h : setting.config.Dark) {stage : Stage} (hframes : stage.frames = #[])

include h hframes

/-- Nothing can be shown. -/
theorem showView (buffer : Text) : ∃ failure,
    stage.showView setting (Frame.views setting.config buffer) = (stage, some (.failed failure)) := by
  obtain ⟨error, herror⟩ := h buffer
  have hsize : stage.frames.size = 0 := by rw [hframes, Array.size_empty]
  have hview : (Frame.views setting.config buffer).at setting.config stage.frames.size
      = .error error := by
    rw [hsize]
    exact herror
  exact ⟨.projection error, by rw [Stage.showView, hview]⟩

theorem advance (duration : Number) : ∃ failure,
    haltOf (stage.advance setting duration) = (stage, some (.failed failure)) := by
  obtain ⟨failure, hfailure⟩ := h.showView hframes stage.session.buffer
  exact ⟨failure, by rw [haltOf_advance, hfailure, andThen_some]⟩

theorem flash : ∃ failure, stage.flash setting = (stage, some (.failed failure)) := by
  obtain ⟨failure, hfailure⟩ := h.showView hframes stage.session.buffer
  exact ⟨failure, by rw [flash_eq, hfailure, andThen_some]⟩

/-- A cue records nothing, and it halts if it calls for frames. -/
theorem perform (cue : Cue) : (stage.perform setting cue).1.frames = #[] ∧
    ((stage.perform setting cue).2 = none → cue.film setting.config stage.rhythm = []) := by
  have hbring : (stage.bring cue).frames = #[] := hframes
  cases cue with
  | key pressed session =>
      simp only [Stage.perform]
      cases setting.config.keyDelay pressed stage.rhythm.next.1 with
      | error error => exact ⟨hframes, fun hnone => by cases hnone⟩
      | ok delay =>
          obtain ⟨failure, hfailure⟩ := h.advance hbring (.real delay)
          exact ⟨(congrArg (fun result => result.1.frames) hfailure).trans hframes,
            fun hnone => by cases hnone.symm.trans (congrArg Prod.snd hfailure)⟩
  | hold duration session =>
      obtain ⟨failure, hfailure⟩ := h.advance hbring (.int duration)
      have hperform : stage.perform setting (.hold duration session) = _ := hfailure
      rw [hperform]
      exact ⟨hframes, fun hnone => by cases hnone⟩
  | flash session =>
      obtain ⟨failure, hfailure⟩ := h.flash hbring
      have hperform : stage.perform setting (.flash session) = _ := hfailure
      rw [hperform]
      exact ⟨hframes, fun hnone => by cases hnone⟩
  | turn session => exact ⟨hframes, fun _ => rfl⟩
  | log entry => exact ⟨hframes, fun _ => rfl⟩
  | halt reason => exact ⟨hframes, fun _ => rfl⟩

theorem performAll (cues : List Cue) :
    (stage.performAll setting cues).1.frames = #[] ∧ stage.reel setting cues = [] := by
  induction cues generalizing stage with
  | nil => exact ⟨hframes, rfl⟩
  | cons cue rest ih =>
      obtain ⟨hnext, hfilm⟩ := h.perform hframes cue
      rw [performAll_cons]
      rcases hcue : stage.perform setting cue with ⟨next, _ | halt⟩ <;> rw [hcue] at hnext hfilm
      · obtain ⟨hlast, hreel⟩ := ih hnext
        refine ⟨hlast, ?_⟩
        rw [reel_cons_of_none hcue, hreel, Cue.shots, hfilm rfl, List.map_nil, List.append_nil]
      · exact ⟨hnext, reel_cons_of_some hcue⟩

/-- No record starts a command, so the commands do not matter. -/
theorem executeRecord (commands : Commands) (record : Json) :
    stage.executeRecord (setting.offering commands) record = stage.executeRecord setting record ∧
      (stage.executeRecord setting record).1.session.commands = stage.session.commands := by
  rw [executeRecord_eq_performAll, executeRecord_eq_performAll, performAll_offering]
  unfold recordCues
  cases Step.ofRecord record with
  | error error => exact ⟨rfl, rfl⟩
  | ok step =>
      by_cases hstep : step = .enter
      · -- the pause of a return halts
        have hbring : (stage.bring (.hold Session.actionPause stage.session.submit.2)).frames
            = #[] := hframes
        obtain ⟨failure, hfailure⟩ := h.advance hbring (.int Session.actionPause)
        have hpause : stage.perform setting (.hold Session.actionPause stage.session.submit.2)
          = (stage.bring (.hold Session.actionPause stage.session.submit.2),
              some (.failed failure)) := hfailure
        rw [hstep]
        simp only [Step.cues, Session.entering]
        rw [performAll_cons, performAll_cons, hpause]
        exact ⟨rfl, rfl⟩
      · have hcues : step.cues commands stage.session
            = step.cues setting.commands stage.session := by
          cases step with
          | enter => exact absurd rfl hstep
          | _ => rfl
        refine ⟨?_, commands_performAll setting
          (stage.session.keeps_cues setting.commands hstep)⟩
        exact congrArg (fun cues => stage.performAll setting cues) hcues

theorem performRecords (commands : Commands) (records : List Json) :
    stage.performRecords (setting.offering commands) records
        = stage.performRecords setting records ∧
      (stage.performRecords setting records).1.frames = #[] ∧
      (stage.performRecords setting records).1.session.commands = stage.session.commands := by
  induction records generalizing stage with
  | nil => exact ⟨rfl, hframes, rfl⟩
  | cons record rest ih =>
      obtain ⟨hsame, hcommands⟩ := h.executeRecord hframes commands record
      have hnext := (h.performAll hframes
        (recordCues setting.commands stage.session record)).1
      rw [← executeRecord_eq_performAll] at hnext
      rw [performRecords_cons, performRecords_cons, hsame]
      rcases hrecord : stage.executeRecord setting record with ⟨next, _ | halt⟩ <;>
        rw [hrecord] at hnext hcommands
      · rw [andThen_none, andThen_none, ← hcommands]
        exact ih hnext
      · exact ⟨rfl, hnext, hcommands⟩

/-- An error cannot be shown. -/
theorem conclude (halt : Halt) : (stage.conclude setting halt).1.frames = #[] ∧
    (stage.conclude setting halt).2.errorFilm (stage.conclude setting halt).1.session = [] := by
  cases halt with
  | interrupted | endless => exact ⟨hframes, rfl⟩
  | failed failure =>
      have herror : (stage.withError failure.text).frames = #[] := hframes
      obtain ⟨reason, hflash⟩ := h.flash herror
      simp only [Stage.conclude, abort_eq_flash, hflash]
      exact ⟨hframes, rfl⟩

end Config.Dark

end Screencast
