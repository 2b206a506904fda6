import Screencast.Replay.Stage

/-!
# Scripts as sheets of cues

The cues of a step depend on nothing but the session and the commands, and a cue leaves the session
that it carries.  The moments of a whole script can therefore be listed before any of them is
performed.  `cueSheet` is that list, `performRecords` performs records without concluding the replay,
and `performRecords_eq_performAll` says that both come to the same: a run performs its sheet from the
start up to the first halt, if there is one.
-/

namespace Screencast

/-- The session that a cue brings on stage. -/
def Cue.session? : Cue → Option Session
  | .key _ session | .hold _ session | .flash session | .turn session => some session
  | .log _ | .halt _ => none

/-- The source of the typing rhythm after a cue: a key draws from it once. -/
def Cue.nextRhythm (rhythm : Twister) : Cue → Twister
  | .key _ _ => rhythm.next.2
  | .hold _ _ | .flash _ | .turn _ | .log _ | .halt _ => rhythm

namespace Session

/-- The session after cues. -/
def after (session : Session) (cues : List Cue) : Session :=
  cues.foldl (fun session cue => cue.session?.getD session) session

@[simp] theorem after_nil (session : Session) : session.after [] = session := rfl

@[simp] theorem after_cons (session : Session) (cue : Cue) (rest : List Cue) :
    session.after (cue :: rest) = (cue.session?.getD session).after rest := rfl

@[simp] theorem after_append (session : Session) (cues rest : List Cue) :
    session.after (cues ++ rest) = (session.after cues).after rest := by
  simp only [after, List.foldl_append]

end Session

/-- The moments of a record: those of its step, or the failure to read one. -/
def recordCues (commands : Commands) (session : Session) (record : Json) : List Cue :=
  match Step.ofRecord record with
  | .ok step => step.cues commands session
  | .error error => [.halt (.failed (.step error))]

/-- The moments of the records of a script. -/
def cueSheet (commands : Commands) : Session → List Json → List Cue
  | _, [] => []
  | session, record :: rest =>
    let cues := recordCues commands session record
    cues ++ cueSheet commands (session.after cues) rest

namespace Stage

variable (setting : Setting)

/-- Goes on after an action, unless it came to a halt. -/
def andThen (result : Stage × Option Halt) (next : Stage → Stage × Option Halt) :
    Stage × Option Halt :=
  match result with
  | (stage, none) => next stage
  | halted => halted

@[simp] theorem andThen_none (stage : Stage) (next : Stage → Stage × Option Halt) :
    andThen (stage, none) next = next stage := rfl

@[simp] theorem andThen_some (stage : Stage) (halt : Halt) (next : Stage → Stage × Option Halt) :
    andThen (stage, some halt) next = (stage, some halt) := rfl

theorem andThen_assoc (result : Stage × Option Halt) (next last : Stage → Stage × Option Halt) :
    andThen (andThen result next) last = andThen result fun stage => andThen (next stage) last := by
  obtain ⟨stage, halt⟩ := result
  cases halt with
  | none => rfl
  | some halt => rfl

/-- An action that ends without a halt went through without one. -/
theorem andThen_eq_none {result : Stage × Option Halt} {next : Stage → Stage × Option Halt}
    {ended : Stage} (h : andThen result next = (ended, none)) :
    ∃ stage, result = (stage, none) ∧ next stage = (ended, none) := by
  obtain ⟨stage, halt⟩ := result
  cases halt with
  | none => exact ⟨stage, rfl, h⟩
  | some halt => cases h

/-! ## Cues one after the other -/

@[simp] theorem performAll_nil (stage : Stage) : stage.performAll setting [] = (stage, none) := rfl

@[simp] theorem performAll_cons (cue : Cue) (rest : List Cue) (stage : Stage) :
    stage.performAll setting (cue :: rest)
      = andThen (stage.perform setting cue) (performAll setting rest) := by
  rw [performAll]
  rcases stage.perform setting cue with ⟨next, _ | halt⟩ <;> rfl

theorem performAll_append (cues rest : List Cue) (stage : Stage) :
    stage.performAll setting (cues ++ rest)
      = andThen (stage.performAll setting cues) (performAll setting rest) := by
  induction cues generalizing stage with
  | nil => rfl
  | cons cue cues ih =>
      simp only [List.cons_append, performAll_cons, andThen_assoc]
      exact congrArg (andThen _) (funext ih)

theorem performAll_singleton (cue : Cue) (stage : Stage) :
    stage.performAll setting [cue] = stage.perform setting cue := by
  rw [performAll_cons]
  rcases stage.perform setting cue with ⟨next, _ | halt⟩ <;> rfl

/-! ## What the operations leave alone

Showing, recording and pausing change neither the session nor the typing rhythm, whether they halt
or not. -/

/-- Two stages with the same session and typing rhythm. -/
structure Holds (before after : Stage) : Prop where
  session : after.session = before.session
  rhythm : after.rhythm = before.rhythm

theorem Holds.refl (stage : Stage) : Holds stage stage := ⟨rfl, rfl⟩

theorem Holds.trans {first second third : Stage} (h : Holds first second)
    (h' : Holds second third) : Holds first third :=
  ⟨h'.session.trans h.session, h'.rhythm.trans h.rhythm⟩

theorem Holds.andThen {before : Stage} {result : Stage × Option Halt}
    {next : Stage → Stage × Option Halt} (h : Holds before result.1)
    (hnext : ∀ stage, Holds stage (next stage).1) : Holds before (andThen result next).1 := by
  obtain ⟨stage, halt⟩ := result
  cases halt with
  | none => exact h.trans (hnext stage)
  | some halt => exact h

theorem holds_note (event : Event) (stage : Stage) : Holds stage (stage.note event) := ⟨rfl, rfl⟩

theorem holds_showView (views : Frame.Views) (stage : Stage) :
    Holds stage (stage.showView setting views).1 := by
  unfold showView
  split
  · split
    · exact holds_note _ stage
    · exact .refl stage
  · exact .refl stage

theorem holds_recordView (config : Config) (views : Frame.Views) (stage : Stage) :
    Holds stage (stage.recordView config views).1 := by
  unfold recordView
  split
  · exact ⟨rfl, rfl⟩
  · exact .refl stage

theorem recordViews_succ (config : Config) (views : Frame.Views) (count : Nat) (stage : Stage) :
    stage.recordViews config views (count + 1)
      = andThen (stage.recordView config views) (recordViews config views count) := by
  rw [recordViews]
  rcases stage.recordView config views with ⟨next, _ | halt⟩ <;> rfl

theorem holds_recordViews (config : Config) (views : Frame.Views) (count : Nat) (stage : Stage) :
    Holds stage (stage.recordViews config views count).1 := by
  induction count generalizing stage with
  | zero => exact .refl stage
  | succ count ih =>
      rw [recordViews_succ]
      exact (holds_recordView config views stage).andThen ih

theorem holds_pause (pacing : Pacing) (duration : Number) (stage : Stage) :
    Holds stage (stage.pause pacing duration).1 := by
  unfold pause
  split
  · exact .refl stage
  · split
    · split
      · exact holds_note _ stage
      · exact .refl stage
    · exact .refl stage

theorem haltOf_elapseViews (config : Config) (pacing : Pacing) (views : Frame.Views)
    (duration : Number) (stage : Stage) :
    haltOf (stage.elapseViews config pacing views duration)
      = match config.frameCount duration with
        | .error error => (stage, some (.failed (.arithmetic error)))
        | .ok count =>
          andThen (stage.recordViews config views count.toNat) (pause pacing duration) := by
  rw [elapseViews]
  cases config.frameCount duration with
  | error error => rfl
  | ok count =>
      simp only
      rcases stage.recordViews config views count.toNat with ⟨next, _ | halt⟩
      · simp only [andThen_none]
        rcases next.pause pacing duration with ⟨last, _ | halt⟩ <;> rfl
      · rfl

theorem haltOf_advance (duration : Number) (stage : Stage) :
    haltOf (stage.advance setting duration)
      = andThen (stage.showView setting (Frame.views setting.config stage.session.buffer))
          fun next => haltOf (next.elapseViews setting.config setting.pacing
            (Frame.views setting.config stage.session.buffer) duration) := by
  rw [advance]
  rcases stage.showView setting (Frame.views setting.config stage.session.buffer) with
    ⟨next, _ | halt⟩ <;> rfl

theorem flash_eq (stage : Stage) :
    stage.flash setting
      = andThen (stage.showView setting (Frame.views setting.config stage.session.buffer))
          (recordView setting.config (Frame.views setting.config stage.session.buffer)) := by
  rw [flash]
  rcases stage.showView setting (Frame.views setting.config stage.session.buffer) with
    ⟨next, _ | halt⟩ <;> rfl

theorem holds_elapseViews (config : Config) (pacing : Pacing) (views : Frame.Views)
    (duration : Number) (stage : Stage) :
    Holds stage (haltOf (stage.elapseViews config pacing views duration)).1 := by
  rw [haltOf_elapseViews]
  split
  · exact .refl stage
  · exact (holds_recordViews config views _ stage).andThen (holds_pause pacing duration)

theorem holds_advance (duration : Number) (stage : Stage) :
    Holds stage (haltOf (stage.advance setting duration)).1 := by
  rw [haltOf_advance]
  exact (holds_showView setting _ stage).andThen
    (holds_elapseViews setting.config setting.pacing _ duration)

theorem holds_flash (stage : Stage) : Holds stage (stage.flash setting).1 := by
  rw [flash_eq]
  exact (holds_showView setting _ stage).andThen (holds_recordView setting.config _)

/-! ## What a performed cue leaves

A cue that comes to a halt leaves its session as well: the session is on stage before anything can
fail. -/

/-- The stage with the session and the rhythm of a cue. -/
def bring (cue : Cue) (stage : Stage) : Stage :=
  { stage with session := cue.session?.getD stage.session, rhythm := cue.nextRhythm stage.rhythm }

theorem holds_perform (cue : Cue) (stage : Stage) :
    Holds (stage.bring cue) (stage.perform setting cue).1 := by
  cases cue with
  | key key session =>
      simp only [perform]
      split
      · exact ⟨rfl, rfl⟩
      · exact holds_advance setting _ (stage.bring (.key key session))
  | hold duration session =>
      exact holds_advance setting (.int duration) (stage.bring (.hold duration session))
  | flash session => exact holds_flash setting (stage.bring (.flash session))
  | turn session => exact ⟨rfl, rfl⟩
  | log entry => exact ⟨rfl, rfl⟩
  | halt reason => exact ⟨rfl, rfl⟩

theorem session_perform (cue : Cue) (stage : Stage) :
    (stage.perform setting cue).1.session = cue.session?.getD stage.session :=
  (holds_perform setting cue stage).session

theorem rhythm_perform (cue : Cue) (stage : Stage) :
    (stage.perform setting cue).1.rhythm = cue.nextRhythm stage.rhythm :=
  (holds_perform setting cue stage).rhythm

/-- Cues performed without a halt leave the session of the last one that has one. -/
theorem session_performAll {cues : List Cue} {stage ended : Stage}
    (h : stage.performAll setting cues = (ended, none)) :
    ended.session = stage.session.after cues := by
  induction cues generalizing stage with
  | nil =>
      simp only [performAll_nil, Prod.mk.injEq] at h
      rw [← h.1, Session.after_nil]
  | cons cue rest ih =>
      rw [performAll_cons] at h
      obtain ⟨next, hcue, hrest⟩ := andThen_eq_none h
      have hnext : next.session = cue.session?.getD stage.session := by
        rw [← session_perform setting cue stage, hcue]
      rw [ih hrest, hnext, Session.after_cons]

/-! ## Records one after the other -/

/-- Performs records up to the first halt, and leaves it at that. -/
def performRecords : List Json → Stage → Stage × Option Halt
  | [], stage => (stage, none)
  | record :: rest, stage =>
    andThen (stage.executeRecord setting record) (performRecords rest)

@[simp] theorem performRecords_cons (record : Json) (rest : List Json) (stage : Stage) :
    stage.performRecords setting (record :: rest)
      = andThen (stage.executeRecord setting record) (performRecords setting rest) := rfl

theorem performRecords_append (done rest : List Json) (stage : Stage) :
    stage.performRecords setting (done ++ rest)
      = andThen (stage.performRecords setting done) (performRecords setting rest) := by
  induction done generalizing stage with
  | nil => rfl
  | cons record done ih =>
      simp only [List.cons_append, performRecords_cons, andThen_assoc]
      exact congrArg (andThen _) (funext ih)

/-- A run performs the records and concludes the halt it comes to. -/
theorem run_eq_conclude (records : List Json) (stage : Stage) :
    stage.run setting records
      = match stage.performRecords setting records with
        | (ended, none) => (ended, .success)
        | (ended, some halt) => ended.conclude setting halt := by
  induction records generalizing stage with
  | nil => rfl
  | cons record rest ih =>
      rw [run, performRecords_cons]
      rcases stage.executeRecord setting record with ⟨next, _ | halt⟩
      · exact ih next
      · rfl

theorem executeRecord_eq_performAll (record : Json) (stage : Stage) :
    stage.executeRecord setting record
      = stage.performAll setting (recordCues setting.commands stage.session record) := by
  unfold executeRecord recordCues
  cases Step.ofRecord record with
  | ok step => rfl
  | error error => rfl

/-- Records are performed as the cues of their sheet. -/
theorem performRecords_eq_performAll (records : List Json) (stage : Stage) :
    stage.performRecords setting records
      = stage.performAll setting (cueSheet setting.commands stage.session records) := by
  induction records generalizing stage with
  | nil => rfl
  | cons record rest ih =>
      rw [performRecords_cons, cueSheet, performAll_append, executeRecord_eq_performAll]
      rcases h : stage.performAll setting (recordCues setting.commands stage.session record) with
        ⟨next, _ | halt⟩
      · -- the sheet of the rest was made for the session that is now on stage
        rw [andThen_none, andThen_none, ih, session_performAll setting h]
      · rfl

end Stage

end Screencast
