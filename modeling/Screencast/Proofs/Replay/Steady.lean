import Screencast.Proofs.Frame.Projects
import Screencast.Proofs.Replay.Compose
import Screencast.Proofs.Replay.Moments

/-!
# Settings that do not interfere

A setting is `Clear` if showing, recording and pausing never fail: then a cue halts a replay only if it
is a halt or if the time that it takes comes to no number of frames (`Cue.stop?`).

It is `Steady` if moreover every delay is a number of frames.  A sheet of cues is then performed up to
the first cue that calls for a halt, whatever else the setting is: `Setting.Steady.performAll`.
-/

namespace Screencast

/-- A time that comes to a number of frames. -/
def Config.Lasts (config : Config) (duration : Number) : Prop :=
  ∃ count, config.frameCount duration = .ok count

/-- No pause is interrupted. -/
def Pacing.Uninterrupted : Pacing → Prop
  | .immediate => True
  | .realTime interrupts => ∀ events, interrupts events = false

/-- A setting in which everything can be shown, on a preview that works, and no pause is interrupted. -/
structure Setting.Clear (setting : Setting) : Prop where
  projects : ∀ buffer count, ∃ frame, project setting.config buffer count = .ok frame
  preview : ∀ frame, setting.preview frame = none
  pacing : setting.pacing.Uninterrupted

/-- A setting in which nothing but the script and its commands can halt a replay. -/
structure Setting.Steady (setting : Setting) : Prop where
  glyph : ∃ glyph, setting.config.cursorGlyph = .string glyph
  projects : setting.config.Projects
  preview : ∀ frame, setting.preview frame = none
  pacing : setting.pacing.Uninterrupted
  pauses : setting.config.Lasts (.int Session.actionPause)
  /-- Every delay that can be drawn for a key comes to a number of frames. -/
  keys : ∀ key (rhythm : Twister), ∃ delay,
    setting.config.keyDelay key rhythm.next.1 = .ok delay ∧ setting.config.Lasts (.real delay)

namespace Stage

variable {setting : Setting}

theorem andThen_isNone {result : Stage × Option Halt} {next : Stage → Stage × Option Halt}
    (h : result.2 = none) (hnext : ∀ stage, (next stage).2 = none) :
    (andThen result next).2 = none := by
  obtain ⟨stage, halt⟩ := result
  obtain rfl : halt = none := h
  exact hnext stage

/-- Frames are recorded as long as buffers can be shown. -/
theorem recordViews_isNone_iff {config : Config} {glyph : Text}
    (hglyph : config.cursorGlyph = .string glyph) (buffer : Text) (count : Nat) (stage : Stage) :
    (stage.recordViews config (Frame.views config buffer) count).2 = none ↔
      (0 < count → config.Projects) := by
  induction count generalizing stage with
  | zero => exact iff_of_true rfl fun h => absurd h (Nat.lt_irrefl 0)
  | succ count ih =>
      have hproject := project_isOk_iff hglyph buffer stage.frames.size
      unfold project at hproject
      simp only [recordViews_succ, recordView]
      cases hview : (Frame.views config buffer).at config stage.frames.size with
      | error error =>
          rw [hview] at hproject
          constructor
          · intro h
            cases h
          · intro h
            obtain ⟨frame, hframe⟩ := hproject.mpr (h (Nat.succ_pos count))
            cases hframe
      | ok frame =>
          have hprojects : config.Projects := hproject.mp ⟨frame, hview⟩
          rw [andThen_none, ih]
          exact iff_of_true (fun _ => hprojects) fun _ => hprojects

/-- A pause whose seconds can be computed is not halted unless the user interrupts it. -/
theorem pause_isNone {pacing : Pacing} (h : pacing.Uninterrupted) {duration : Number}
    (hseconds : ∃ seconds, duration.div (.int 1000) = .ok seconds) (stage : Stage) :
    (stage.pause pacing duration).2 = none := by
  obtain ⟨seconds, hseconds⟩ := hseconds
  cases pacing with
  | immediate => rfl
  | realTime interrupts =>
      simp only [pause, hseconds]
      split
      · have hnever : interrupts stage.journal.size = false := h _
        simp only [hnever, Bool.false_eq_true, if_false]
      · rfl

end Stage

/-! ## Moments -/

/-- The halt that a cue calls for. -/
def Cue.halt? : Cue → Option Halt
  | .halt reason => some reason
  | .key _ _ | .hold _ _ | .flash _ | .turn _ | .log _ => none

/-- A cue that holds a session for no other time than the pause after an action. -/
def Cue.Paced : Cue → Prop
  | .hold duration _ => duration = Session.actionPause
  | .key _ _ | .flash _ | .turn _ | .log _ | .halt _ => True

/-- The halt that a time comes to if it cannot pass. -/
def Config.stop? (config : Config) (duration : Number) : Option Halt :=
  match config.frameCount duration with
  | .ok _ => none
  | .error error => some (.failed (.arithmetic error))

theorem Config.stop?_of_lasts {config : Config} {duration : Number} (h : config.Lasts duration) :
    config.stop? duration = none := by
  obtain ⟨count, hcount⟩ := h
  rw [stop?, hcount]

/-- The halt that a cue comes to where everything can be shown. -/
def Cue.stop? (config : Config) (rhythm : Twister) : Cue → Option Halt
  | .key pressed _ =>
    match config.keyDelay pressed rhythm.next.1 with
    | .error error => some (.failed (.arithmetic error))
    | .ok delay => config.stop? (.real delay)
  | .hold duration _ => config.stop? (.int duration)
  | .halt reason => some reason
  | .flash _ | .turn _ | .log _ => none

namespace Setting.Clear

open Stage

variable {setting : Setting} (h : setting.Clear)

include h

theorem showView (buffer : Text) (stage : Stage) :
    (stage.showView setting (Frame.views setting.config buffer)).2 = none := by
  obtain ⟨frame, hframe⟩ := h.projects buffer stage.frames.size
  have hview : (Frame.views setting.config buffer).at setting.config stage.frames.size
      = .ok frame := hframe
  simp only [Stage.showView, hview, h.preview frame]

theorem recordView (buffer : Text) (stage : Stage) :
    (stage.recordView setting.config (Frame.views setting.config buffer)).2 = none := by
  obtain ⟨frame, hframe⟩ := h.projects buffer stage.frames.size
  have hview : (Frame.views setting.config buffer).at setting.config stage.frames.size
      = .ok frame := hframe
  simp only [Stage.recordView, hview]

theorem recordViews (buffer : Text) (count : Nat) (stage : Stage) :
    (stage.recordViews setting.config (Frame.views setting.config buffer) count).2 = none := by
  induction count generalizing stage with
  | zero => rfl
  | succ count ih =>
      rw [recordViews_succ]
      exact andThen_isNone (h.recordView buffer stage) ih

theorem flash (stage : Stage) : (stage.flash setting).2 = none := by
  rw [flash_eq]
  exact andThen_isNone (h.showView _ stage) (h.recordView _)

theorem advance {duration : Number} (hseconds : ∃ seconds, duration.div (.int 1000) = .ok seconds)
    (stage : Stage) :
    (haltOf (stage.advance setting duration)).2 = setting.config.stop? duration := by
  obtain ⟨shown, hshown⟩ : ∃ shown, stage.showView setting
      (Frame.views setting.config stage.session.buffer) = (shown, none) :=
    ⟨_, Prod.ext rfl (h.showView stage.session.buffer stage)⟩
  rw [haltOf_advance, hshown, andThen_none, haltOf_elapseViews, Config.stop?]
  cases setting.config.frameCount duration with
  | error error => rfl
  | ok count => exact andThen_isNone (h.recordViews _ _ shown) (pause_isNone h.pacing hseconds)

/-- A cue halts only if it is a halt or takes a time that cannot pass. -/
theorem perform {cue : Cue} (hpaced : cue.Paced) (stage : Stage) :
    (stage.perform setting cue).2 = cue.stop? setting.config stage.rhythm := by
  cases cue with
  | key pressed session =>
      simp only [Stage.perform, Cue.stop?]
      cases setting.config.keyDelay pressed stage.rhythm.next.1 with
      | error error => rfl
      | ok delay => exact h.advance ⟨_, rfl⟩ (stage.bring (.key pressed session))
  | hold duration session =>
      obtain rfl : duration = Session.actionPause := hpaced
      have hseconds : ∃ seconds, (Number.int Session.actionPause).div (.int 1000) = .ok seconds :=
        ⟨_, rfl⟩
      exact h.advance hseconds (stage.bring (.hold Session.actionPause session))
  | flash session => exact h.flash (stage.bring (.flash session))
  | turn session => rfl
  | log entry => rfl
  | halt reason => rfl

end Setting.Clear

namespace Setting.Steady

variable {setting : Setting} (h : setting.Steady)

include h

/-- Every buffer has a frame, which the preview shows. -/
theorem project (buffer : Text) (count : Int) :
    ∃ frame, Screencast.project setting.config buffer count = .ok frame := by
  obtain ⟨glyph, hglyph⟩ := h.glyph
  exact (project_isOk_iff hglyph buffer count).mpr h.projects

theorem clear : setting.Clear := ⟨h.project, h.preview, h.pacing⟩

/-- A cue is performed unless it is a halt itself. -/
theorem perform {cue : Cue} (hpaced : cue.Paced) (stage : Stage) :
    (stage.perform setting cue).2 = cue.halt? := by
  rw [h.clear.perform hpaced]
  cases cue with
  | key pressed session =>
      obtain ⟨delay, hdelay, hframes⟩ := h.keys pressed stage.rhythm
      simp only [Cue.stop?, hdelay]
      exact Config.stop?_of_lasts hframes
  | hold duration session =>
      obtain rfl : duration = Session.actionPause := hpaced
      exact Config.stop?_of_lasts h.pauses
  | flash session | turn session => rfl
  | log entry => rfl
  | halt reason => rfl

end Setting.Steady

/-! ## Sheets -/

/-- The cues before the first halt. -/
def played (cues : List Cue) : List Cue := cues.takeWhile fun cue => cue.halt?.isNone

/-- The first halt of cues. -/
def firstHalt? (cues : List Cue) : Option Halt := cues.findSome? Cue.halt?

@[simp] theorem firstHalt?_cons (cue : Cue) (rest : List Cue) :
    firstHalt? (cue :: rest) = cue.halt?.or (firstHalt? rest) := by
  rw [firstHalt?, List.findSome?_cons]
  cases cue.halt? <;> rfl

@[simp] theorem firstHalt?_append (cues rest : List Cue) :
    firstHalt? (cues ++ rest) = (firstHalt? cues).or (firstHalt? rest) :=
  List.findSome?_append

/-- A sheet is performed up to the first halt that it calls for. -/
theorem Setting.Steady.performAll {setting : Setting} (h : setting.Steady) {cues : List Cue}
    (hpaced : ∀ cue ∈ cues, cue.Paced) (stage : Stage) :
    ∃ ended, stage.performAll setting (played cues) = (ended, none) ∧
      stage.performAll setting cues = (ended, firstHalt? cues) := by
  induction cues generalizing stage with
  | nil => exact ⟨stage, rfl, rfl⟩
  | cons cue rest ih =>
      have hcue := h.perform (hpaced cue (List.mem_cons_self ..)) stage
      have hrest := fun next => ih (fun later hlater => hpaced later (List.mem_cons_of_mem _ hlater)) next
      cases hhalt : cue.halt? with
      | none =>
          rw [hhalt] at hcue
          obtain ⟨next, hnext⟩ : ∃ next, stage.perform setting cue = (next, none) :=
            ⟨_, Prod.ext rfl hcue⟩
          obtain ⟨ended, hplayed, hall⟩ := hrest next
          have hfirst : played (cue :: rest) = cue :: played rest := by simp [played, hhalt]
          refine ⟨ended, ?_, ?_⟩
          · rw [hfirst, Stage.performAll_cons, hnext, Stage.andThen_none, hplayed]
          · rw [Stage.performAll_cons, hnext, Stage.andThen_none, hall]
            simp [firstHalt?, hhalt]
      | some reason =>
          obtain rfl : cue = .halt reason := by
            cases cue <;> cases hhalt
            rfl
          exact ⟨stage, rfl, rfl⟩

theorem Cue.usual_paced (commands : Commands) : Cue.Usual commands Cue.Paced :=
  ⟨fun _ _ => trivial, fun _ => rfl, fun _ => trivial, fun _ => trivial, fun _ => trivial,
    fun _ => trivial, fun _ _ _ _ => trivial, fun _ _ _ _ _ => trivial⟩

theorem Step.cues_paced (commands : Commands) (session : Session) (step : Step) :
    ∀ cue ∈ step.cues commands session, cue.Paced :=
  step.cues_forall (Cue.usual_paced commands) session fun _ _ _ _ _ => trivial

/-- The sheet of a script holds its sessions for no other time than the pause after an action. -/
theorem cueSheet_paced (commands : Commands) (session : Session) (records : List Json) :
    ∀ cue ∈ cueSheet commands session records, cue.Paced :=
  cueSheet_forall (Cue.usual_paced commands) trivial session records

end Screencast
