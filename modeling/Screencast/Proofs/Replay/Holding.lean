import Screencast.Proofs.Replay.Pauses

/-!
# Holding a session on the screen

Advancing a replay shows the session on the preview, records it for some frames and pauses.  `Stage.Held`
lists what that comes to: all the frames of the time, or those before the first one that cannot be made.
`Stage.Continues` says which frames and pauses a stage has more than another one.
-/

namespace Screencast

/-- What showing a buffer as the frame at a place fails with, if it does. -/
def Setting.unseen? (setting : Setting) (buffer : Text) (place : Nat) : Option Failure :=
  match project setting.config buffer place with
  | .ok frame => setting.preview frame
  | .error error => some (.projection error)

theorem Setting.Clear.unseen?_eq_none {setting : Setting} (h : setting.Clear) (buffer : Text)
    (place : Nat) : setting.unseen? buffer place = none := by
  obtain ⟨frame, hframe⟩ := h.projects buffer place
  simp only [Setting.unseen?, hframe, h.preview]

namespace Stage

/-- A stage that went on from another one with the same typing rhythm: it recorded buffers, each as one
frame, the projection at the place of that frame, and it made pauses. -/
structure Continues (config : Config) (before : Stage) (buffers : List Text)
    (pauses : List Binary64) (after : Stage) : Prop where
  frames : Adds config before buffers after
  sleeps : after.sleeps = before.sleeps ++ pauses
  rhythm : after.rhythm = before.rhythm

section

variable {config : Config} {before middle after : Stage} {buffers later : List Text}
  {pauses more : List Binary64}

namespace Continues

/-- Nothing was recorded, and there was no pause. -/
theorem of_eq (hframes : after.frames = before.frames) (hsleeps : after.sleeps = before.sleeps)
    (hrhythm : after.rhythm = before.rhythm) : Continues config before [] [] after where
  frames := .of_eq hframes
  sleeps := by rw [hsleeps, List.append_nil]
  rhythm := hrhythm

theorem trans (h : Continues config before buffers pauses middle)
    (h' : Continues config middle later more after) :
    Continues config before (buffers ++ later) (pauses ++ more) after where
  frames := h.frames.trans h'.frames
  sleeps := by rw [h'.sleeps, h.sleeps, List.append_assoc]
  rhythm := h'.rhythm.trans h.rhythm

/-- Going on without a pause. -/
theorem trans_nil (h : Continues config before buffers [] middle)
    (h' : Continues config middle later more after) :
    Continues config before (buffers ++ later) more after :=
  h.trans h'

/-- It does not matter which session is on stage. -/
theorem withSession (h : Continues config before buffers pauses after) (session : Session) :
    Continues config before buffers pauses { after with session } :=
  ⟨h.frames, h.sleeps, h.rhythm⟩

/-- Noting what is no pause. -/
theorem note {event : Event} (h : event.seconds? = none) (stage : Stage) :
    Continues config stage [] [] (stage.note event) :=
  .of_eq rfl (Alike.note h stage).sleeps rfl

end Continues

end

/-! ## Showing, recording, pausing -/

variable {setting : Setting}

theorem showView_of_unseen {buffer : Text} {stage : Stage} {failure : Failure}
    (h : setting.unseen? buffer stage.frames.size = some failure) :
    stage.showView setting (Frame.views setting.config buffer) = (stage, some (.failed failure)) := by
  rw [Setting.unseen?, project] at h
  rw [showView]
  cases hframe : (Frame.views setting.config buffer).at setting.config stage.frames.size with
  | error error =>
      rw [hframe] at h
      obtain rfl := Option.some.inj h
      rfl
  | ok frame =>
      rw [hframe] at h
      simp only [h]

/-- A buffer that can be shown has a frame at its place, which the preview shows. -/
theorem exists_showView {buffer : Text} {stage : Stage}
    (h : setting.unseen? buffer stage.frames.size = none) :
    ∃ frame, project setting.config buffer stage.frames.size = .ok frame ∧
      stage.showView setting (Frame.views setting.config buffer) = (stage.note (.shown frame), none) := by
  rw [Setting.unseen?] at h
  cases hframe : project setting.config buffer stage.frames.size with
  | error error => rw [hframe] at h; cases h
  | ok frame =>
      rw [hframe] at h
      have hview : (Frame.views setting.config buffer).at setting.config stage.frames.size
          = .ok frame := hframe
      exact ⟨frame, rfl, by simp only [showView, hview, h]⟩

/-- Recording a buffer that has a frame at its place. -/
theorem exists_recordView {config : Config} {buffer : Text} {stage : Stage} {frame : Frame}
    (h : project config buffer stage.frames.size = .ok frame) :
    ∃ next, stage.recordView config (Frame.views config buffer) = (next, none) ∧
      Continues config stage [buffer] [] next ∧ next.session = stage.session := by
  have hview : (Frame.views config buffer).at config stage.frames.size = .ok frame := h
  have hsleeps : (stage.note (.recorded stage.session.buffer)).sleeps = stage.sleeps :=
    (Alike.note rfl stage).sleeps
  refine ⟨{ stage with
      frames := stage.frames.push frame
      journal := stage.journal.push (.recorded stage.session.buffer) },
    by simp only [recordView, hview], ⟨⟨[frame], by simp, ?_⟩, ?_, rfl⟩, rfl⟩
  · simp [projections, h]
  · rw [List.append_nil, ← hsleeps]
    rfl

/-- Frames of a buffer are recorded up to the first one that cannot be made. -/
theorem exists_recordViews (config : Config) (buffer : Text) (count : Nat) (stage : Stage) :
    ∃ done after halt, stage.recordViews config (Frame.views config buffer) count = (after, halt) ∧
      Continues config stage (List.replicate done buffer) [] after ∧
      (done = count ∧ halt = none ∨
        done < count ∧ ∃ error, project config buffer ((stage.frames.size + done : Nat) : Int)
          = .error error ∧ halt = some (.failed (.projection error))) := by
  induction count generalizing stage with
  | zero => exact ⟨0, stage, none, rfl, .of_eq rfl rfl rfl, .inl ⟨rfl, rfl⟩⟩
  | succ count ih =>
      rw [recordViews_succ]
      cases hframe : project config buffer stage.frames.size with
      | error error =>
          have hview : (Frame.views config buffer).at config stage.frames.size
              = .error error := hframe
          refine ⟨0, stage, some (.failed (.projection error)), ?_, .of_eq rfl rfl rfl,
            .inr ⟨Nat.succ_pos count, error, hframe, rfl⟩⟩
          simp only [recordView, hview, andThen_some]
      | ok frame =>
          obtain ⟨next, hnext, hcontinues, -⟩ := exists_recordView hframe
          obtain ⟨done, after, halt, hafter, hlater, hend⟩ := ih next
          have hsize : next.frames.size = stage.frames.size + 1 := hcontinues.frames.size_frames
          refine ⟨done + 1, after, halt, by rw [hnext, andThen_none, hafter], ?_, ?_⟩
          · exact hcontinues.trans_nil hlater
          · rw [hsize, Nat.add_assoc, Nat.add_comm 1] at hend
            rcases hend with ⟨rfl, hnone⟩ | ⟨hdone, hfails⟩
            · exact .inl ⟨rfl, hnone⟩
            · exact .inr ⟨Nat.succ_lt_succ hdone, hfails⟩

/-- A pause whose seconds can be computed is made as a whole, and nothing but the user halts it. -/
theorem exists_pause (config : Config) (pacing : Pacing) {duration : Number}
    (hseconds : ∃ seconds, duration.div (.int 1000) = .ok seconds) (stage : Stage) :
    ∃ after halt, stage.pause pacing duration = (after, halt) ∧
      Continues config stage [] (pacing.rests duration) after ∧
      (halt = none ∨ halt = some .interrupted ∧ ¬pacing.Uninterrupted) := by
  obtain ⟨seconds, hseconds⟩ := hseconds
  cases pacing with
  | immediate => exact ⟨stage, none, rfl, .of_eq rfl rfl rfl, .inl rfl⟩
  | realTime interrupts =>
      rw [pause, Pacing.rests, hseconds]
      by_cases hpositive : duration.isPositive = true
      · simp only [hpositive, if_true]
        refine ⟨_, _, rfl, ⟨⟨[], by simp [Stage.note], rfl⟩, ?_, rfl⟩, ?_⟩
        · rw [sleeps_note]
          rfl
        · cases hinterrupt : interrupts stage.journal.size with
          | false => exact .inl rfl
          | true =>
              refine .inr ⟨rfl, fun hnever => ?_⟩
              rw [hnever stage.journal.size] at hinterrupt
              cases hinterrupt
      · simp only [Bool.not_eq_true] at hpositive
        simp only [hpositive, Bool.false_eq_true, if_false]
        exact ⟨stage, none, rfl, .of_eq rfl rfl rfl, .inl rfl⟩

/-! ## Advancing -/

/-- What holding the session of a stage for some time comes to. -/
inductive Held (setting : Setting) (duration : Number) (before : Stage) : Stage × Option Halt → Prop
  /-- The session cannot be shown. -/
  | unseen {failure : Failure}
      (unseen : setting.unseen? before.session.buffer before.frames.size = some failure) :
      Held setting duration before (before, some (.failed failure))
  /-- The time does not come to any number of frames. -/
  | untimed {error : ArithmeticError} {after : Stage}
      (seen : setting.unseen? before.session.buffer before.frames.size = none)
      (untimed : setting.config.frameCount duration = .error error)
      (continues : Continues setting.config before [] [] after) :
      Held setting duration before (after, some (.failed (.arithmetic error)))
  /-- One of the frames cannot be made; those before it are recorded. -/
  | broken {count : Int} {done : Nat} {error : ProjectionError} {after : Stage}
      (seen : setting.unseen? before.session.buffer before.frames.size = none)
      (timed : setting.config.frameCount duration = .ok count) (early : done < count.toNat)
      (broken : project setting.config before.session.buffer ((before.frames.size + done : Nat) : Int)
        = .error error)
      (continues : Continues setting.config before
        (List.replicate done before.session.buffer) [] after) :
      Held setting duration before (after, some (.failed (.projection error)))
  /-- All frames of the time are recorded, and then comes the pause, which the user may interrupt. -/
  | held {count : Int} {after : Stage} {halt : Option Halt}
      (seen : setting.unseen? before.session.buffer before.frames.size = none)
      (timed : setting.config.frameCount duration = .ok count)
      (continues : Continues setting.config before
        (List.replicate count.toNat before.session.buffer) (setting.pacing.rests duration) after)
      (ends : halt = none ∨ halt = some .interrupted ∧ ¬setting.pacing.Uninterrupted) :
      Held setting duration before (after, halt)

theorem held_advance {duration : Number}
    (hseconds : ∃ seconds, duration.div (.int 1000) = .ok seconds) (stage : Stage) :
    Held setting duration stage (haltOf (stage.advance setting duration)) := by
  rw [haltOf_advance]
  cases hunseen : setting.unseen? stage.session.buffer stage.frames.size with
  | some failure =>
      rw [showView_of_unseen hunseen, andThen_some]
      exact .unseen hunseen
  | none =>
      obtain ⟨frame, -, hshown⟩ := exists_showView hunseen
      have hnote : Continues setting.config stage [] [] (stage.note (.shown frame)) := .note rfl stage
      rw [hshown, andThen_none, haltOf_elapseViews]
      cases htimed : setting.config.frameCount duration with
      | error error => exact .untimed hunseen htimed hnote
      | ok count =>
          obtain ⟨done, after, halt, hrecorded, hcontinues, hend⟩ := exists_recordViews setting.config
            stage.session.buffer count.toNat (stage.note (.shown frame))
          simp only [hrecorded]
          rcases hend with ⟨rfl, rfl⟩ | ⟨hdone, error, hbroken, rfl⟩
          · obtain ⟨last, halt, hpause, hpaused, hhalt⟩ :=
              exists_pause setting.config setting.pacing hseconds after
            rw [andThen_none, hpause]
            refine .held hunseen htimed ?_ hhalt
            have hall := (hnote.trans_nil hcontinues).trans_nil hpaused
            rwa [List.nil_append, List.append_nil] at hall
          · rw [andThen_some]
            exact .broken hunseen htimed hdone hbroken (hnote.trans_nil hcontinues)

/-- The frames and the pause of a time that was passed. -/
theorem Held.continues {duration : Number} {before after : Stage}
    (h : Held setting duration before (after, none)) :
    Continues setting.config before
      (List.replicate (setting.config.ticks duration) before.session.buffer)
      (setting.pacing.rests duration) after := by
  cases h with
  | held seen timed continues ends => rwa [Config.ticks, timed]

/-- Where everything can be shown and no pause is interrupted, a time that comes to a number of frames is
passed. -/
theorem Held.exists_eq_none {duration : Number} {before : Stage} {result : Stage × Option Halt}
    (h : Held setting duration before result) (hclear : setting.Clear)
    (hlasts : setting.config.Lasts duration) : ∃ after, result = (after, none) := by
  have hseen := hclear.unseen?_eq_none before.session.buffer before.frames.size
  cases h with
  | unseen unseen =>
      rw [hseen] at unseen
      cases unseen
  | untimed seen untimed continues =>
      obtain ⟨count, hcount⟩ := hlasts
      rw [hcount] at untimed
      cases untimed
  | @broken count done error after seen timed early broken continues =>
      obtain ⟨frame, hframe⟩ := hclear.projects before.session.buffer (before.frames.size + done : Nat)
      rw [hframe] at broken
      cases broken
  | held seen timed continues ends =>
      rcases ends with rfl | ⟨-, hinterrupted⟩
      · exact ⟨_, rfl⟩
      · exact absurd hclear.pacing hinterrupted

/-! ## Flashing -/

/-- Showing a session as one frame records that frame, unless the session cannot be shown. -/
theorem exists_flash (stage : Stage)
    (h : setting.unseen? stage.session.buffer stage.frames.size = none) :
    ∃ next, stage.flash setting = (next, none) ∧
      Continues setting.config stage [stage.session.buffer] [] next ∧
      next.session = stage.session := by
  obtain ⟨frame, hframe, hshown⟩ := exists_showView h
  have hplace : project setting.config stage.session.buffer (stage.note (.shown frame)).frames.size
      = .ok frame := hframe
  obtain ⟨next, hrecorded, hcontinues, hsession⟩ := exists_recordView hplace
  have hnote : Continues setting.config stage [] [] (stage.note (.shown frame)) := .note rfl stage
  refine ⟨next, ?_, hnote.trans_nil hcontinues, hsession⟩
  rw [flash_eq, hshown, andThen_none, hrecorded]

theorem flash_of_unseen {stage : Stage} {failure : Failure}
    (h : setting.unseen? stage.session.buffer stage.frames.size = some failure) :
    stage.flash setting = (stage, some (.failed failure)) := by
  rw [flash_eq, showView_of_unseen h, andThen_some]

end Stage

end Screencast
