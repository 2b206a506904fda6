import Screencast.Proofs.Replay.Alike
import Screencast.Recording

/-!
# Replays with and without pauses

A preview and the pauses between the frames are there for the one who watches.  Two settings that differ
in nothing else, and in which neither fails, record the same: what one does on a stage, the other does on
a stage that matches it.  `Setting.SamePlay.matched_run` says so for the run of a script, and
`Recording.matches_ofScript` for a whole recording.
-/

namespace Screencast

/-- Two settings that differ only in preview and pauses, none of which fails. -/
structure Setting.SamePlay (setting other : Setting) : Prop where
  config : setting.config = other.config
  commands : setting.commands = other.commands
  preview : ∀ frame, setting.preview frame = none
  otherPreview : ∀ frame, other.preview frame = none
  pacing : setting.pacing.Uninterrupted
  otherPacing : other.pacing.Uninterrupted

namespace Stage

/-- What happened so far, without the pauses. -/
def account (stage : Stage) : List Event :=
  stage.journal.toList.filter fun event => event.seconds?.isNone

theorem account_note (event : Event) (stage : Stage) :
    (stage.note event).account
      = stage.account ++ if event.seconds?.isNone then [event] else [] := by
  simp only [account, note, Array.toList_push, List.filter_append, List.filter_cons, List.filter_nil]

/-- Stages on which the same happened, with pauses or without. -/
structure Matches (stage other : Stage) : Prop where
  session : stage.session = other.session
  frames : stage.frames = other.frames
  rhythm : stage.rhythm = other.rhythm
  account : stage.account = other.account

/-- Actions with the same result on matching stages. -/
structure Matched {α : Type} (result other : Stage × α) : Prop where
  value : result.2 = other.2
  stages : result.1.Matches other.1

variable {stage other : Stage}

namespace Matches

theorem refl (stage : Stage) : stage.Matches stage := ⟨rfl, rfl, rfl, rfl⟩

theorem symm (h : stage.Matches other) : other.Matches stage :=
  ⟨h.session.symm, h.frames.symm, h.rhythm.symm, h.account.symm⟩

theorem trans {last : Stage} (h : stage.Matches other) (h' : other.Matches last) :
    stage.Matches last :=
  ⟨h.session.trans h'.session, h.frames.trans h'.frames, h.rhythm.trans h'.rhythm,
    h.account.trans h'.account⟩

/-- The same event happens on both. -/
theorem note (h : stage.Matches other) (event : Event) :
    (stage.note event).Matches (other.note event) where
  session := h.session
  frames := h.frames
  rhythm := h.rhythm
  account := by rw [account_note, account_note, h.account]

/-- A stage matches itself after a pause. -/
theorem slept (seconds : Binary64) (stage : Stage) : (stage.note (.slept seconds)).Matches stage where
  session := rfl
  frames := rfl
  rhythm := rfl
  account := by rw [account_note, Event.seconds?, Option.isNone_some, if_neg Bool.false_ne_true,
    List.append_nil]

theorem bring (h : stage.Matches other) (cue : Cue) :
    (stage.bring cue).Matches (other.bring cue) where
  session := by simp only [Stage.bring, h.session]
  frames := h.frames
  rhythm := by simp only [Stage.bring, h.rhythm]
  account := h.account

end Matches

namespace Matched

theorem andThen {result last : Stage × Option Halt} {next next' : Stage → Stage × Option Halt}
    (h : Matched result last)
    (hnext : ∀ stage other : Stage, stage.Matches other → Matched (next stage) (next' other)) :
    Matched (Stage.andThen result next) (Stage.andThen last next') := by
  obtain ⟨stage, halt⟩ := result
  obtain ⟨other, halt'⟩ := last
  obtain ⟨rfl, hstages⟩ : halt = halt' ∧ stage.Matches other := ⟨h.value, h.stages⟩
  cases halt with
  | none => exact hnext stage other hstages
  | some halt => exact ⟨rfl, hstages⟩

end Matched

/-! ## Recording and pausing -/

theorem matched_recordView (config : Config) (views : Frame.Views) (h : stage.Matches other) :
    Matched (stage.recordView config views) (other.recordView config views) := by
  simp only [recordView, h.frames]
  cases views.at config other.frames.size with
  | error error => exact ⟨rfl, h⟩
  | ok frame =>
      have hnote := h.note (.recorded other.session.buffer)
      refine ⟨rfl, h.session, rfl, h.rhythm, ?_⟩
      rw [h.session]
      exact hnote.account

theorem matched_recordViews (config : Config) (views : Frame.Views) (count : Nat)
    (h : stage.Matches other) :
    Matched (stage.recordViews config views count) (other.recordViews config views count) := by
  induction count generalizing stage other with
  | zero => exact ⟨rfl, h⟩
  | succ count ih =>
      rw [recordViews_succ, recordViews_succ]
      exact (matched_recordView config views h).andThen fun _ _ => ih

/-- A pause that nobody interrupts leaves a matching stage. -/
theorem matches_pause {pacing : Pacing} (hpacing : pacing.Uninterrupted) {duration : Number}
    (hseconds : ∃ seconds, duration.div (.int 1000) = .ok seconds) (stage : Stage) :
    (stage.pause pacing duration).2 = none ∧ (stage.pause pacing duration).1.Matches stage := by
  refine ⟨pause_isNone hpacing hseconds stage, ?_⟩
  obtain ⟨seconds, hseconds⟩ := hseconds
  cases pacing with
  | immediate => exact .refl stage
  | realTime interrupts =>
      simp only [pause, hseconds]
      split
      · exact .slept seconds stage
      · exact .refl stage

/-- Holding the last frame makes no pause. -/
theorem matched_elapse (config : Config) (duration : Number) (h : stage.Matches other) :
    Matched (stage.elapse config .immediate duration) (other.elapse config .immediate duration) := by
  simp only [elapse, elapseViews, h.session]
  cases config.frameCount duration with
  | error error => exact ⟨rfl, h⟩
  | ok count =>
      have hrecorded := matched_recordViews config (Frame.views config other.session.buffer)
        count.toNat h
      rcases hfirst : stage.recordViews config (Frame.views config other.session.buffer) count.toNat
        with ⟨held, halt⟩
      rcases hsecond : other.recordViews config (Frame.views config other.session.buffer) count.toNat
        with ⟨held', halt'⟩
      rw [hfirst, hsecond] at hrecorded
      obtain ⟨rfl, hheld⟩ : halt = halt' ∧ held.Matches held' :=
        ⟨hrecorded.value, hrecorded.stages⟩
      simp only [hfirst, hsecond]
      cases halt with
      | none => exact ⟨rfl, hheld⟩
      | some halt => exact ⟨rfl, hheld⟩

end Stage

/-! ## The same cues in both settings -/

namespace Setting.SamePlay

open Stage

variable {setting paced : Setting} (h : setting.SamePlay paced) {stage other : Stage}

include h

theorem matched_showView (views : Frame.Views) (hstages : stage.Matches other) :
    Matched (stage.showView setting views) (other.showView paced views) := by
  simp only [showView, hstages.frames, h.config, h.preview, h.otherPreview]
  cases views.at paced.config other.frames.size with
  | error error => exact ⟨rfl, hstages⟩
  | ok frame => exact ⟨rfl, hstages.note (.shown frame)⟩

theorem matched_flash (hstages : stage.Matches other) :
    Matched (stage.flash setting) (other.flash paced) := by
  rw [flash_eq, flash_eq, hstages.session, h.config]
  exact (h.matched_showView _ hstages).andThen fun _ _ => matched_recordView _ _

theorem matched_advance {duration : Number}
    (hseconds : ∃ seconds, duration.div (.int 1000) = .ok seconds) (hstages : stage.Matches other) :
    Matched (haltOf (stage.advance setting duration)) (haltOf (other.advance paced duration)) := by
  rw [haltOf_advance, haltOf_advance, hstages.session, h.config]
  refine (h.matched_showView _ hstages).andThen fun next next' hnext => ?_
  rw [haltOf_elapseViews, haltOf_elapseViews]
  cases paced.config.frameCount duration with
  | error error => exact ⟨rfl, hnext⟩
  | ok count =>
      refine (matched_recordViews _ _ _ hnext).andThen fun last last' hlast => ?_
      -- the pauses may differ, but they leave what was there
      obtain ⟨hnone, hmatches⟩ := matches_pause h.pacing hseconds last
      obtain ⟨hnone', hmatches'⟩ := matches_pause h.otherPacing hseconds last'
      exact ⟨hnone.trans hnone'.symm, (hmatches.trans hlast).trans hmatches'.symm⟩

theorem matched_perform {cue : Cue} (hpaced : cue.Paced) (hstages : stage.Matches other) :
    Matched (stage.perform setting cue) (other.perform paced cue) := by
  have hbring := hstages.bring cue
  cases cue with
  | key pressed session =>
      simp only [perform, hstages.rhythm, h.config]
      rw [Stage.bring, Stage.bring, hstages.rhythm] at hbring
      cases paced.config.keyDelay pressed other.rhythm.next.1 with
      | error error => exact ⟨rfl, hbring⟩
      | ok delay => exact h.matched_advance ⟨_, rfl⟩ hbring
  | hold duration session =>
      obtain rfl : duration = Session.actionPause := hpaced
      have hseconds : ∃ seconds, (Number.int Session.actionPause).div (.int 1000) = .ok seconds :=
        ⟨_, rfl⟩
      exact h.matched_advance hseconds hbring
  | flash session => exact h.matched_flash hbring
  | turn session => exact ⟨rfl, hbring⟩
  | log entry => exact ⟨rfl, hstages.note (.logged entry)⟩
  | halt reason => exact ⟨rfl, hstages⟩

theorem matched_performAll {cues : List Cue} (hpaced : ∀ cue ∈ cues, cue.Paced)
    (hstages : stage.Matches other) :
    Matched (stage.performAll setting cues) (other.performAll paced cues) := by
  induction cues generalizing stage other with
  | nil => exact ⟨rfl, hstages⟩
  | cons cue rest ih =>
      obtain ⟨hcue, hrest⟩ := List.forall_mem_cons.mp hpaced
      rw [performAll_cons, performAll_cons]
      exact (h.matched_perform hcue hstages).andThen fun _ _ => ih hrest

/-! ## Whole replays -/

theorem matched_conclude (halt : Halt) (hstages : stage.Matches other) :
    Matched (stage.conclude setting halt) (other.conclude paced halt) := by
  cases halt with
  | interrupted => exact ⟨rfl, hstages.note _⟩
  | endless => exact ⟨rfl, hstages⟩
  | failed failure =>
      have hlogged := hstages.note (.logged ⟨"termreplay.replay", .error, "ERROR: " ++ failure.text⟩)
      have hwritten : Matched (stage.abort setting failure.text) (other.abort paced failure.text) := by
        refine h.matched_flash ⟨?_, hlogged.frames, hlogged.rhythm, hlogged.account⟩
        simp only [log, hlogged.session]
      simp only [conclude]
      rcases hfirst : stage.abort setting failure.text with ⟨shown, halt⟩
      rcases hsecond : other.abort paced failure.text with ⟨shown', halt'⟩
      rw [hfirst, hsecond] at hwritten
      obtain ⟨rfl, hshown⟩ : halt = halt' ∧ shown.Matches shown' :=
        ⟨hwritten.value, hwritten.stages⟩
      cases halt with
      | none => exact ⟨rfl, hshown⟩
      | some halt => exact ⟨rfl, hshown⟩

/-- The run of a script ends in the same way on matching stages. -/
theorem matched_run (records : List Json) (hstages : stage.Matches other) :
    Matched (stage.run setting records) (other.run paced records) := by
  have hperformed : Matched (stage.performRecords setting records)
      (other.performRecords paced records) := by
    rw [performRecords_eq_performAll, performRecords_eq_performAll, hstages.session, h.commands]
    exact h.matched_performAll (cueSheet_paced _ _ _) hstages
  rw [run_eq_conclude, run_eq_conclude]
  rcases hfirst : stage.performRecords setting records with ⟨ended, halt⟩
  rcases hsecond : other.performRecords paced records with ⟨ended', halt'⟩
  rw [hfirst, hsecond] at hperformed
  obtain ⟨rfl, hended⟩ : halt = halt' ∧ ended.Matches ended' :=
    ⟨hperformed.value, hperformed.stages⟩
  cases halt with
  | none => exact ⟨rfl, hended⟩
  | some halt => exact h.matched_conclude halt hended

end Setting.SamePlay

namespace Recording

open Stage

variable {stage other : Stage}

/-- Recordings that match in everything but pauses. -/
structure Matches (recording other : Recording) : Prop where
  stage : recording.stage.Matches other.stage
  shop : recording.shop = other.shop
  result : recording.result = other.result

theorem matches_noteAll (entries : List LogEntry) (h : stage.Matches other) :
    (noteAll entries stage).Matches (noteAll entries other) := by
  induction entries generalizing stage other with
  | nil => exact h
  | cons entry rest ih => exact ih (h.note (.logged entry))

theorem matches_finish (tools : Tools) (config : Config) (path : List Char) (exitCode : Nat)
    (shop : Workshop) (h : stage.Matches other) :
    (finish tools config path exitCode stage shop).Matches
      (finish tools config path exitCode other shop) := by
  simp only [finish, h.frames]
  rcases (Target.choose path config.renderer).render tools config other.frames.toList shop with
    ⟨made, rendered⟩
  have hnoted := matches_noteAll made.log h
  split
  · exact ⟨hnoted.note _, rfl, rfl⟩
  · exact ⟨hnoted, rfl, rfl⟩
  · exact ⟨hnoted.note _, rfl, rfl⟩

theorem matches_conclude {setting paced : Setting} (hconfig : setting.config = paced.config)
    (tools : Tools) (path : List Char) (disk : Disk) (outcome : Outcome) (h : stage.Matches other) :
    (conclude setting tools path disk (stage, outcome)).Matches
      (conclude paced tools path disk (other, outcome)) := by
  simp only [conclude, hconfig]
  cases outcome with
  | escaped halt | endless => exact ⟨h, rfl, rfl⟩
  | success | failure =>
      have helapsed := matched_elapse paced.config (.int paced.config.endDelay) h
      rcases hfirst : stage.elapse paced.config .immediate (.int paced.config.endDelay)
        with ⟨held, ended⟩
      rcases hsecond : other.elapse paced.config .immediate (.int paced.config.endDelay)
        with ⟨held', ended'⟩
      rw [hfirst, hsecond] at helapsed
      obtain ⟨rfl, hheld⟩ : ended = ended' ∧ held.Matches held' :=
        ⟨helapsed.value, helapsed.stages⟩
      cases ended with
      | error halt => exact ⟨hheld, rfl, rfl⟩
      | ok count => exact matches_finish tools paced.config path _ _ hheld

/-- The recordings of a script match, with pauses and without, if their rhythms have the same source. -/
theorem matches_ofScript {setting paced : Setting} (h : setting.SamePlay paced)
    (hrhythm : setting.rhythm = paced.rhythm) (tools : Tools) (path : List Char) (records : List Json)
    (disk : Disk) :
    (ofScript setting tools path records disk).Matches (ofScript paced tools path records disk) := by
  have hopening : opening setting = opening paced := by
    rw [opening, opening, hrhythm]
  have hrun := h.matched_run records (Stage.Matches.refl (opening paced))
  rw [ofScript, ofScript, hopening]
  rcases hfirst : (opening paced).run setting records with ⟨ended, outcome⟩
  rcases hsecond : (opening paced).run paced records with ⟨ended', outcome'⟩
  rw [hfirst, hsecond] at hrun
  obtain ⟨rfl, hended⟩ : outcome = outcome' ∧ ended.Matches ended' := ⟨hrun.value, hrun.stages⟩
  exact matches_conclude h.config tools path disk outcome hended

end Recording

end Screencast
