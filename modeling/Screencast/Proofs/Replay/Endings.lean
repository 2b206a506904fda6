import Screencast.Proofs.Replay.Course
import Screencast.Proofs.Replay.Effect
import Screencast.Proofs.Replay.Moderate

/-!
# Which replays end

Nothing but a wait can keep a replay from ending.  `run_endings` says that a replay ends exactly if each
wait without a bound that it arrives at is halted, and how often the loops of the others are passed.  The
waits without a bound are those for an infinite time and for a time that is no number.
-/

namespace Screencast

/-! ## Halts -/

/-- Commands that do not run for ever. -/
structure Commands.End (commands : Commands) : Prop where
  refused : ∀ before command, commands before command ≠ .refused .endless
  halted : ∀ before command texts, commands before command ≠ .started texts (.halted .endless)

/-- Of the cues of a step only those of a wait can be without end. -/
theorem Commands.End.usual {commands : Commands} (h : commands.End) :
    Cue.Usual commands (· ≠ .halt .endless) := by
  constructor
  case refused =>
    rintro before command halt hlaunch ⟨⟩
    exact h.refused before command hlaunch
  case halted =>
    rintro before command texts halt hlaunch ⟨⟩
    exact h.halted before command texts hlaunch
  all_goals
    intros
    rintro ⟨⟩

namespace Stage

variable {setting : Setting} {stage : Stage}

theorem andThen_ne_endless {result : Stage × Option Halt} {next : Stage → Stage × Option Halt}
    (h : result.2 ≠ some .endless) (hnext : ∀ stage, (next stage).2 ≠ some .endless) :
    (andThen result next).2 ≠ some .endless := by
  obtain ⟨stage, _ | halt⟩ := result
  · exact hnext stage
  · exact h

theorem showView_ne_endless (views : Frame.Views) (stage : Stage) :
    (stage.showView setting views).2 ≠ some .endless := by
  unfold showView
  split
  · split <;> exact nofun
  · exact nofun

theorem recordView_ne_endless (config : Config) (views : Frame.Views) (stage : Stage) :
    (stage.recordView config views).2 ≠ some .endless := by
  unfold recordView
  split <;> exact nofun

theorem recordViews_ne_endless (config : Config) (views : Frame.Views) (count : Nat)
    (stage : Stage) : (stage.recordViews config views count).2 ≠ some .endless := by
  induction count generalizing stage with
  | zero => exact nofun
  | succ count ih =>
      rw [recordViews_succ]
      exact andThen_ne_endless (recordView_ne_endless config views stage) ih

theorem pause_ne_endless (pacing : Pacing) (duration : Number) (stage : Stage) :
    (stage.pause pacing duration).2 ≠ some .endless := by
  unfold pause
  split
  · exact nofun
  · split
    · split
      · simp only
        split <;> exact nofun
      · exact nofun
    · exact nofun

theorem advance_ne_endless (duration : Number) (stage : Stage) :
    (haltOf (stage.advance setting duration)).2 ≠ some .endless := by
  rw [haltOf_advance]
  refine andThen_ne_endless (showView_ne_endless _ stage) fun next => ?_
  rw [haltOf_elapseViews]
  split
  · exact nofun
  · exact andThen_ne_endless (recordViews_ne_endless _ _ _ next) (pause_ne_endless _ duration)

theorem perform_ne_endless {cue : Cue} (h : cue ≠ .halt .endless) (stage : Stage) :
    (stage.perform setting cue).2 ≠ some .endless := by
  cases cue with
  | key key session =>
      simp only [perform]
      split
      · intro hkey
        cases hkey
      · exact advance_ne_endless _ _
  | hold duration session => exact advance_ne_endless (.int duration) (stage.bring (.hold duration session))
  | flash session =>
      simp only [perform]
      rw [flash_eq]
      exact andThen_ne_endless (showView_ne_endless _ _) (recordView_ne_endless _ _)
  | turn session =>
      intro hturn
      cases hturn
  | log entry =>
      intro hlog
      cases hlog
  | halt reason =>
      rintro hhalt
      obtain rfl : reason = .endless := Option.some.inj hhalt
      exact h rfl

theorem performAll_ne_endless {cues : List Cue} (h : ∀ cue ∈ cues, cue ≠ .halt .endless)
    (stage : Stage) : (stage.performAll setting cues).2 ≠ some .endless := by
  induction cues generalizing stage with
  | nil => exact nofun
  | cons cue rest ih =>
      rw [List.forall_mem_cons] at h
      rw [performAll_cons]
      exact andThen_ne_endless (perform_ne_endless h.1 stage) (ih h.2)

/-- Only a wait without a bound halts a replay without end. -/
theorem performRecords_ne_endless (hcommands : Commands.End setting.commands) {records : List Json}
    (hbound : ∀ now text timeout, ArrivesAt setting stage records now text timeout →
      ¬timeout.Boundless) : (stage.performRecords setting records).2 ≠ some .endless := by
  induction records generalizing stage with
  | nil =>
      intro hnone
      cases hnone
  | cons record rest ih =>
      have hrecord : (stage.executeRecord setting record).2 ≠ some .endless := by
        cases hparsed : Step.ofRecord record with
        | error error =>
            rw [executeRecord, hparsed]
            intro hfailed
            cases hfailed
        | ok step =>
            rw [executeRecord_of_step hparsed]
            refine performAll_ne_endless (step.cues_forall hcommands.usual stage.session ?_) stage
            rintro text timeout rfl habsent hboundless
            exact absurd hboundless (hbound stage text timeout (.here hparsed habsent))
      rw [performRecords_cons]
      rcases hnext : stage.executeRecord setting record with ⟨next, _ | halt⟩
      · exact ih fun now text timeout harrives =>
          hbound now text timeout (.later hnext harrives)
      · rwa [hnext] at hrecord

theorem run_ne_endless {records : List Json}
    (h : (stage.performRecords setting records).2 ≠ some .endless) :
    (stage.run setting records).2 ≠ .endless := by
  rw [run_eq_conclude]
  rcases hrecords : stage.performRecords setting records with ⟨ended, _ | failure | _ | _⟩
  · intro hfinished
    cases hfinished
  · simp only [conclude]
    intro hfailed
    split at hfailed <;> cases hfailed
  · intro hinterrupted
    cases hinterrupted
  · rw [hrecords] at h
    exact absurd rfl h

end Stage

/-! ## Deletions -/

theorem Session.length_deleting (session : Session) (count : Nat) :
    (session.deleting count).length = min count session.buffer.length := by
  induction count generalizing session with
  | zero => rw [deleting, List.length_nil, Nat.zero_min]
  | succ count ih =>
      have hone : session.delete 1 = session.erase 1 := session.delete_natCast 1
      have hlength : (session.erase 1).buffer.length = session.buffer.length - 1 :=
        List.length_take_of_le (Nat.sub_le _ _)
      rw [deleting]
      by_cases hnone : session.deletable 1 = 0
      · rw [if_pos hnone, List.length_nil]
        rw [deletable] at hnone
        omega
      · rw [if_neg hnone, List.length_cons, ih, hone, hlength]
        rw [deletable] at hnone
        omega

/-! ## Which replays end -/

/-- What it takes for a replay to end, and how long its loops are. -/
structure Endings (setting : Setting) (stage : Stage) (records : List Json) : Prop where
  /-- A replay ends exactly if every wait without a bound that it arrives at is halted. -/
  ends : (∃ result, (Course.start stage records).Yields setting result) ↔
    ∀ now text timeout, ArrivesAt setting stage records now text timeout → timeout.Boundless →
      ∃ count, (Course.polls setting now count).2 ≠ none
  /-- If it arrives at none, it ends with what its cues lead to, and the run is concluded. -/
  concluded : (∀ now text timeout, ArrivesAt setting stage records now text timeout →
      ¬timeout.Boundless) →
    (Course.start stage records).Yields setting (stage.performRecords setting records) ∧
      (stage.run setting records).2 ≠ .endless
  /-- A wait with a bound looks at the screen a fixed number of times: until the time waited, in whole
  looks, is not below the bound. -/
  looks : ∀ (session : Session) text (timeout : Number),
    Text.occursIn text session.buffer = false → ¬timeout.Boundless →
      ∃ count, session.waiting text timeout
          = List.replicate count (.hold Session.pollInterval session)
            ++ [.halt (.failed (.timeout text))] ∧
        ∀ done, timeout.reachedBy (done * Session.pollInterval) = true ↔ count ≤ done
  /-- A deletion stops at the start of the buffer. -/
  deletions : ∀ (session : Session) count,
    (session.deleting count).length = min count session.buffer.length

/-- Which replays end, and how long their loops are. -/
theorem run_endings {setting : Setting} (hcommands : Commands.End setting.commands) (stage : Stage)
    (records : List Json) : Endings setting stage records where
  ends := Course.exists_yields_iff
  concluded hbound :=
    ⟨(Course.yields_iff_performRecords hbound).mpr rfl,
      Stage.run_ne_endless (Stage.performRecords_ne_endless hcommands hbound)⟩
  looks session text timeout habsent hbound := by
    cases hsteps : timeout.stepsToReach Session.pollInterval with
    | none => exact absurd (Number.stepsToReach_eq_none_iff.mp hsteps) hbound
    | some count =>
        refine ⟨count, ?_, Number.reachedBy_iff_of_stepsToReach (by decide) hsteps⟩
        simp only [Session.waiting, habsent, hsteps, Bool.false_eq_true, if_false]
  deletions := Session.length_deleting

/-- A record that waits for a text. -/
def waitRecord (text : Text) (timeout : Number) : Json :=
  .object [("action", .string "waitForOutput"), ("payload", .string text),
    ("timeoutMs", .ofNumber timeout)]

/-- A wait of one and a half seconds ends. -/
theorem run_endings_shortWait :
    (Course.start default [waitRecord "x" (.int 1500)]).Yields (quietSetting usualConfig)
        (Stage.performRecords (quietSetting usualConfig) [waitRecord "x" (.int 1500)] default) ∧
      (Stage.run (quietSetting usualConfig) [waitRecord "x" (.int 1500)] default).2 ≠ .endless := by
  have hcommands : Commands.End (quietSetting usualConfig).commands := ⟨nofun, nofun⟩
  refine (run_endings hcommands default [waitRecord "x" (.int 1500)]).concluded ?_
  rintro now text timeout (⟨hparsed, -⟩ | ⟨-, harrives⟩)
  · have hrecord : Step.ofRecord (waitRecord "x" (.int 1500)) = .ok (.waitFor "x" (.int 1500)) := rfl
    rw [hrecord] at hparsed
    cases hparsed
    exact nofun
  · cases harrives

/-- A replay that never ends: a time that is no number is taken for one that is not negative. -/
theorem run_endings_nan :
    Commands.End (quietSetting usualConfig).commands ∧
      (quietSetting usualConfig).config.fps = .int 30 ∧
      Step.ofRecord (waitRecord "x" (.real .nan)) = .ok (.waitFor "x" (.real .nan)) ∧
      ¬∃ result, (Course.start default [waitRecord "x" (.real .nan)]).Yields
        (quietSetting usualConfig) result := by
  have hparsed : Step.ofRecord (waitRecord "x" (.real .nan)) = .ok (.waitFor "x" (.real .nan)) := rfl
  have habsent : Text.occursIn "x" (default : Stage).session.buffer = false := rfl
  refine ⟨⟨nofun, nofun⟩, rfl, hparsed, ?_⟩
  simp only [Course.yields_of_inl (Course.pass_of_wait hparsed)]
  rw [Course.exists_yields_iff_polls (.inr rfl) habsent]
  rintro ⟨count, hcount⟩
  have hsteady : (quietSetting usualConfig).Steady :=
    Setting.steady_of_moderate rfl usualConfig_moderate (fun _ => rfl) trivial
  have hpaced : ∀ cue ∈ List.replicate count
      (Cue.hold Session.pollInterval (default : Stage).session), cue.Paced := by
    intro cue hcue
    rw [List.eq_of_mem_replicate hcue]
    exact rfl
  obtain ⟨ended, -, hpolls⟩ := hsteady.performAll hpaced default
  have hnone : firstHalt? (List.replicate count
      (Cue.hold Session.pollInterval (default : Stage).session)) = none := by
    simp [firstHalt?, Cue.halt?, List.findSome?_eq_none_iff]
  rw [hnone] at hpolls
  exact hcount (congrArg Prod.snd hpolls)

end Screencast
