import Screencast.Proofs.Replay.Steady

/-!
# Replays that go on alike

Two stages are `Alike` if they differ only in frames and in what was shown and logged: the terminal, the
typing rhythm and the pauses are the same.  In a clear setting the same cue leaves alike stages alike, and
halts on both or on none (`Setting.Clear.together_perform`), wherever their recordings stand.
-/

namespace Screencast

/-- The seconds of a pause. -/
def Event.seconds? : Event → Option Binary64
  | .slept seconds => some seconds
  | .shown _ | .recorded _ | .logged _ => none

namespace Stage

/-- The pauses so far, in seconds. -/
def sleeps (stage : Stage) : List Binary64 := stage.journal.toList.filterMap Event.seconds?

theorem sleeps_note (event : Event) (stage : Stage) :
    (stage.note event).sleeps = stage.sleeps ++ event.seconds?.toList := by
  simp only [sleeps, note, Array.toList_push, List.filterMap_append]
  cases h : event.seconds? <;> simp [h]

/-- Stages with the same terminal, rhythm and pauses. -/
structure Alike (stage other : Stage) : Prop where
  session : stage.session = other.session
  rhythm : stage.rhythm = other.rhythm
  sleeps : stage.sleeps = other.sleeps

/-- Results of actions that ended in the same way on alike stages. -/
structure Together (result other : Stage × Option Halt) : Prop where
  halt : result.2 = other.2
  alike : result.1.Alike other.1

variable {stage other : Stage}

namespace Alike

theorem refl (stage : Stage) : stage.Alike stage := ⟨rfl, rfl, rfl⟩

theorem symm (h : stage.Alike other) : other.Alike stage :=
  ⟨h.session.symm, h.rhythm.symm, h.sleeps.symm⟩

theorem trans {last : Stage} (h : stage.Alike other) (h' : other.Alike last) : stage.Alike last :=
  ⟨h.session.trans h'.session, h.rhythm.trans h'.rhythm, h.sleeps.trans h'.sleeps⟩

/-- The same cue brings the same session and rhythm on stage. -/
theorem bring (h : stage.Alike other) (cue : Cue) : (stage.bring cue).Alike (other.bring cue) where
  session := by simp only [Stage.bring, h.session]
  rhythm := by simp only [Stage.bring, h.rhythm]
  sleeps := h.sleeps

/-- Noting what is no pause changes nothing. -/
theorem note {event : Event} (h : event.seconds? = none) (stage : Stage) :
    (stage.note event).Alike stage where
  session := rfl
  rhythm := rfl
  sleeps := by rw [sleeps_note, h, Option.toList_none, List.append_nil]

theorem andThen {result : Stage × Option Halt} {next : Stage → Stage × Option Halt}
    (h : result.1.Alike other) (hnext : ∀ stage, (next stage).1.Alike stage) :
    (Stage.andThen result next).1.Alike other := by
  obtain ⟨stage, _ | halt⟩ := result
  · exact (hnext stage).trans h
  · exact h

end Alike

namespace Together

/-- Actions that do not halt and leave alike stages alike. -/
theorem of_none {result last : Stage × Option Halt} (h : stage.Alike other)
    (hresult : result.2 = none) (hlast : last.2 = none) (halike : result.1.Alike stage)
    (halike' : last.1.Alike other) : Together result last :=
  ⟨hresult.trans hlast.symm, (halike.trans h).trans halike'.symm⟩

theorem andThen {result last : Stage × Option Halt} {next next' : Stage → Stage × Option Halt}
    (h : Together result last)
    (hnext : ∀ stage other : Stage, stage.Alike other → Together (next stage) (next' other)) :
    Together (Stage.andThen result next) (Stage.andThen last next') := by
  obtain ⟨stage, halt⟩ := result
  obtain ⟨other, halt'⟩ := last
  obtain ⟨rfl, halike⟩ : halt = halt' ∧ stage.Alike other := ⟨h.halt, h.alike⟩
  cases halt with
  | none => exact hnext stage other halike
  | some halt => exact ⟨rfl, halike⟩

end Together

/-! ## Showing, recording, pausing -/

theorem alike_showView (setting : Setting) (views : Frame.Views) (stage : Stage) :
    (stage.showView setting views).1.Alike stage := by
  unfold showView
  split
  · split
    · exact .note rfl stage
    · exact .refl stage
  · exact .refl stage

theorem alike_recordView (config : Config) (views : Frame.Views) (stage : Stage) :
    (stage.recordView config views).1.Alike stage := by
  unfold recordView
  split
  · have hnote : (stage.note (.recorded stage.session.buffer)).Alike stage := .note rfl stage
    exact ⟨rfl, rfl, hnote.sleeps⟩
  · exact .refl stage

theorem alike_recordViews (config : Config) (views : Frame.Views) (count : Nat) (stage : Stage) :
    (stage.recordViews config views count).1.Alike stage := by
  induction count generalizing stage with
  | zero => exact .refl stage
  | succ count ih =>
      rw [recordViews_succ]
      exact (alike_recordView config views stage).andThen ih

theorem alike_flash (setting : Setting) (stage : Stage) :
    (stage.flash setting).1.Alike stage := by
  rw [flash_eq]
  exact (alike_showView setting _ stage).andThen (alike_recordView setting.config _)

/-- Pauses that nobody interrupts are the same on alike stages. -/
theorem together_pause {pacing : Pacing} (hpacing : pacing.Uninterrupted) (h : stage.Alike other)
    (duration : Number) : Together (stage.pause pacing duration) (other.pause pacing duration) := by
  cases pacing with
  | immediate => exact ⟨rfl, h⟩
  | realTime interrupts =>
      have hnever (events : Nat) : interrupts events = false := hpacing events
      simp only [pause, hnever]
      split
      · cases duration.div (.int 1000) with
        | error error => exact ⟨rfl, h⟩
        | ok seconds =>
            refine ⟨rfl, h.session, h.rhythm, ?_⟩
            simp only [sleeps_note, h.sleeps]
      · exact ⟨rfl, h⟩

end Stage

/-! ## Cues -/

namespace Setting.Clear

open Stage

variable {setting : Setting} (h : setting.Clear) {stage other : Stage} (halike : stage.Alike other)

include h halike

theorem together_showView (buffer : Text) :
    Together (stage.showView setting (Frame.views setting.config buffer))
      (other.showView setting (Frame.views setting.config buffer)) :=
  .of_none halike (h.showView buffer stage) (h.showView buffer other)
    (alike_showView setting _ stage) (alike_showView setting _ other)

theorem together_recordViews (buffer : Text) (count : Nat) :
    Together (stage.recordViews setting.config (Frame.views setting.config buffer) count)
      (other.recordViews setting.config (Frame.views setting.config buffer) count) :=
  .of_none halike (h.recordViews buffer count stage) (h.recordViews buffer count other)
    (alike_recordViews setting.config _ count stage) (alike_recordViews setting.config _ count other)

theorem together_flash : Together (stage.flash setting) (other.flash setting) :=
  .of_none halike (h.flash stage) (h.flash other) (alike_flash setting stage)
    (alike_flash setting other)

theorem together_advance (duration : Number) :
    Together (haltOf (stage.advance setting duration)) (haltOf (other.advance setting duration)) := by
  rw [haltOf_advance, haltOf_advance, halike.session]
  refine (h.together_showView halike _).andThen fun next next' hnext => ?_
  rw [haltOf_elapseViews, haltOf_elapseViews]
  cases setting.config.frameCount duration with
  | error error => exact ⟨rfl, hnext⟩
  | ok count =>
      exact (h.together_recordViews hnext _ _).andThen fun _ _ hlast =>
        together_pause h.pacing hlast duration

/-- A cue is performed in the same way on alike stages. -/
theorem together_perform (cue : Cue) :
    Together (stage.perform setting cue) (other.perform setting cue) := by
  have hbring := halike.bring cue
  cases cue with
  | key pressed session =>
      have hdelay : setting.config.keyDelay pressed stage.rhythm.next.1
          = setting.config.keyDelay pressed other.rhythm.next.1 := by rw [halike.rhythm]
      simp only [Stage.perform, hdelay]
      cases setting.config.keyDelay pressed other.rhythm.next.1 with
      | error error => exact ⟨rfl, hbring⟩
      | ok delay => exact h.together_advance hbring (.real delay)
  | hold duration session => exact h.together_advance hbring (.int duration)
  | flash session => exact h.together_flash hbring
  | turn session => exact ⟨rfl, hbring⟩
  | log entry =>
      exact ⟨rfl, ((Alike.note rfl stage).trans halike).trans (Alike.note rfl other).symm⟩
  | halt reason => exact ⟨rfl, halike⟩

end Setting.Clear

end Screencast
