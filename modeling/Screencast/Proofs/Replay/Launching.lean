import Screencast.Proofs.Replay.Keyboard

/-!
# When commands are started

A command is started at one moment of a return, and the session lists it from then on.  Every other
moment of a replay keeps the list: `keeps_cues` for the steps that are not a return, and
`entering_eq` for what a return does before and after.  A step that comes to a halt on its way has
therefore started what its line calls for or, if already the pause before that was cut short, nothing.
-/

namespace Screencast

/-- A cue that starts nothing besides these commands. -/
def Cue.Keeps (commands : List Text) (cue : Cue) : Prop :=
  ∀ session, cue.session? = some session → session.commands = commands

namespace Cue.Keeps

variable {commands : List Text} {cue : Cue}

theorem of_none (h : cue.session? = none) : cue.Keeps commands := by
  intro session hsession
  rw [h] at hsession
  cases hsession

theorem of_some {session : Session} (h : cue.session? = some session)
    (hcommands : session.commands = commands) : cue.Keeps commands := by
  intro other hother
  rw [h] at hother
  cases hother
  exact hcommands

/-- The list of commands after a cue that keeps it. -/
theorem commands_eq {session : Session} (h : cue.Keeps session.commands) :
    (cue.session?.getD session).commands = session.commands := by
  cases hsession : cue.session? with
  | none => rfl
  | some next => exact h next hsession

end Cue.Keeps

namespace Session

variable (session : Session)

theorem keeps_typing (text : Text) : ∀ cue ∈ session.typing text, cue.Keeps session.commands := by
  induction text generalizing session with
  | nil => exact List.forall_mem_nil _
  | cons c rest ih =>
      rw [typing]
      exact List.forall_mem_cons.mpr ⟨.of_some rfl rfl, ih (session.type [c])⟩

theorem keeps_deleting (count : Nat) :
    ∀ cue ∈ session.deleting count, cue.Keeps session.commands := by
  induction count generalizing session with
  | zero => exact List.forall_mem_nil _
  | succ count ih =>
      have hdelete : (session.delete 1).commands = session.commands := by
        rw [show session.delete 1 = session.erase 1 from session.delete_natCast 1]
        rfl
      rw [deleting]
      split
      · exact List.forall_mem_nil _
      · -- the next session lists the same commands, so the hypothesis speaks of this list
        have hrest := ih (session.delete 1)
        rw [hdelete] at hrest
        exact List.forall_mem_cons.mpr ⟨.of_some rfl hdelete, hrest⟩

theorem keeps_receiving (texts : List Text) :
    ∀ cue ∈ session.receiving texts, cue.Keeps session.commands := by
  induction texts generalizing session with
  | nil => exact List.forall_mem_nil _
  | cons text rest ih =>
      rw [receiving]
      exact List.forall_mem_cons.mpr ⟨.of_some rfl rfl, ih (session.emit text)⟩

theorem keeps_ending (command : Text) (ending : Ending) :
    ∀ cue ∈ session.ending command ending, cue.Keeps session.commands := by
  have hhold : Cue.Keeps session.commands (.hold actionPause (session.emit "\n")) :=
    .of_some rfl rfl
  cases ending with
  | halted halt => exact List.forall_mem_singleton.mpr (.of_none rfl)
  | quiet => exact List.forall_mem_singleton.mpr hhold
  | exited status =>
      simp only [Session.ending]
      split
      · exact List.forall_mem_singleton.mpr (.of_none rfl)
      · refine List.forall_mem_append.mpr ⟨?_, List.forall_mem_singleton.mpr hhold⟩
        split
        · exact List.forall_mem_nil _
        · exact List.forall_mem_singleton.mpr (.of_none rfl)

theorem keeps_waiting (text : Text) (timeout : Number) :
    ∀ cue ∈ session.waiting text timeout, cue.Keeps session.commands := by
  have hhold : Cue.Keeps session.commands (.hold pollInterval session) := .of_some rfl rfl
  unfold waiting
  split
  · exact List.forall_mem_nil _
  · split
    · exact List.forall_mem_cons.mpr ⟨hhold, List.forall_mem_singleton.mpr (.of_none rfl)⟩
    · refine List.forall_mem_append.mpr ⟨fun cue hcue => ?_,
        List.forall_mem_singleton.mpr (.of_none rfl)⟩
      rw [List.eq_of_mem_replicate hcue]
      exact hhold

theorem keeps_clearing : ∀ cue ∈ session.clearing, cue.Keeps session.commands := by
  rw [clearing]
  exact List.forall_mem_append.mpr ⟨session.keeps_typing clearWord,
    List.forall_mem_singleton.mpr (.of_some rfl rfl)⟩

/-- A command is started after it is noted, and nothing is started after it. -/
theorem running_eq (commands : Commands) (command : Text) :
    ∃ note output, session.running commands command
        = .log note :: .turn (session.start command) :: output ∧
      ∀ cue ∈ output, cue.Keeps (session.start command).commands := by
  refine ⟨_, _, rfl, ?_⟩
  cases commands session.commands command with
  | refused halt => exact List.forall_mem_singleton.mpr (.of_none rfl)
  | started texts ending =>
      have hreceived :
          ((session.start command).received texts).commands = (session.start command).commands := by
        rw [received_eq_emit]
        rfl
      have hending := ((session.start command).received texts).keeps_ending command ending
      rw [hreceived] at hending
      exact List.forall_mem_append.mpr ⟨(session.start command).keeps_receiving texts, hending⟩

/-- A step that is not a return starts nothing. -/
theorem keeps_cues (commands : Commands) {step : Step} (hstep : step ≠ .enter) :
    ∀ cue ∈ step.cues commands session, cue.Keeps session.commands := by
  cases step with
  | typeText text => exact session.keeps_typing text
  | delete count => exact session.keeps_deleting count
  | enter => exact absurd rfl hstep
  | paste | copy span => exact List.forall_mem_singleton.mpr (.of_some rfl rfl)
  | clear => exact session.keeps_clearing
  | waitFor text timeout => exact session.keeps_waiting text timeout

/-! ## Nothing is pending at a start -/

/-- From one session to the next no command is started, or one is while nothing is pending. -/
def StartsIdle (next : Session) : Prop :=
  next.commands = session.commands ∨
    session.pending = [] ∧ ∃ command, next = session.start command

/-- Cues that start a command only while nothing is pending. -/
def AllStartIdle : Session → List Cue → Prop
  | _, [] => True
  | session, cue :: rest =>
    session.StartsIdle (cue.session?.getD session) ∧ AllStartIdle (cue.session?.getD session) rest

variable {session}

theorem AllStartIdle.append {cues rest : List Cue} (h : session.AllStartIdle cues)
    (hrest : (session.after cues).AllStartIdle rest) : session.AllStartIdle (cues ++ rest) := by
  induction cues generalizing session with
  | nil => exact hrest
  | cons cue cues ih => exact ⟨h.1, ih h.2 hrest⟩

/-- Every moment of such cues is one of these two. -/
theorem AllStartIdle.split {cue : Cue} {done rest : List Cue}
    (h : session.AllStartIdle (done ++ cue :: rest)) :
    (session.after done).StartsIdle (cue.session?.getD (session.after done)) := by
  induction done generalizing session with
  | nil => exact h.1
  | cons first done ih => exact ih h.2

theorem allStartIdle_of_keeps {cues : List Cue} (h : ∀ cue ∈ cues, cue.Keeps session.commands) :
    session.AllStartIdle cues := by
  induction cues generalizing session with
  | nil => trivial
  | cons cue rest ih =>
      obtain ⟨hcue, hrest⟩ := List.forall_mem_cons.mp h
      rw [← hcue.commands_eq] at hrest
      exact ⟨.inl hcue.commands_eq, ih hrest⟩

theorem allStartIdle_entering (commands : Commands) (session : Session) :
    session.AllStartIdle (session.entering commands) := by
  have hcues : session.entering commands = .hold actionPause session.submit.2 ::
      if session.submit.1.isEmpty then [] else session.submit.2.running commands session.submit.1 :=
    rfl
  rw [hcues]
  refine ⟨.inl rfl, ?_⟩
  split
  · trivial
  · obtain ⟨note, output, hrunning, hkeeps⟩ :=
      session.submit.2.running_eq commands session.submit.1
    rw [hrunning]
    exact ⟨.inl rfl, .inr ⟨rfl, session.submit.1, rfl⟩, allStartIdle_of_keeps hkeeps⟩

theorem allStartIdle_recordCues (commands : Commands) (session : Session) (record : Json) :
    session.AllStartIdle (recordCues commands session record) := by
  unfold recordCues
  cases Step.ofRecord record with
  | error error => exact ⟨.inl rfl, trivial⟩
  | ok step =>
      by_cases hstep : step = .enter
      · rw [hstep]
        exact allStartIdle_entering commands session
      · exact allStartIdle_of_keeps (session.keeps_cues commands hstep)

/-- Whatever the script, commands are started only while nothing is pending. -/
theorem allStartIdle_cueSheet (commands : Commands) (session : Session) (records : List Json) :
    session.AllStartIdle (cueSheet commands session records) := by
  induction records generalizing session with
  | nil => trivial
  | cons record rest ih => exact (allStartIdle_recordCues commands session record).append (ih _)

end Session

namespace Stage

variable (setting : Setting)

/-- A moment that records come to, and the stage on which it is performed: no moment before it halts.
Performing records is performing these moments in order (`performRecords_eq_performAll`). -/
def Reaches (records : List Json) (stage now : Stage) (cue : Cue) : Prop :=
  ∃ done rest, cueSheet setting.commands stage.session records = done ++ cue :: rest ∧
    stage.performAll setting done = (now, none)

/-- Nothing is pending at any start of a command in a run. -/
theorem Reaches.startsIdle {setting : Setting} {records : List Json} {stage now : Stage} {cue : Cue}
    (h : Reaches setting records stage now cue) :
    now.session.StartsIdle (now.perform setting cue).1.session := by
  obtain ⟨done, rest, hsheet, hdone⟩ := h
  have hidle := Session.allStartIdle_cueSheet setting.commands stage.session records
  rw [hsheet] at hidle
  rw [session_perform, session_performAll setting hdone]
  exact hidle.split

/-! ## The commands of a step -/

/-- Cues that start nothing leave the list of commands as it is, also when they come to a halt. -/
theorem commands_performAll {cues : List Cue} {stage : Stage}
    (h : ∀ cue ∈ cues, cue.Keeps stage.session.commands) :
    (stage.performAll setting cues).1.session.commands = stage.session.commands := by
  induction cues generalizing stage with
  | nil => rfl
  | cons cue rest ih =>
      obtain ⟨hcue, hrest⟩ := List.forall_mem_cons.mp h
      have hnext : (stage.perform setting cue).1.session.commands = stage.session.commands := by
        rw [session_perform]
        exact hcue.commands_eq
      rw [performAll_cons]
      -- a cue that halts has brought its session on stage already
      rcases hperform : stage.perform setting cue with ⟨next, _ | halt⟩ <;> rw [hperform] at hnext
      · rw [← hnext] at hrest
        rw [andThen_none, ih hrest, hnext]
      · exact hnext

/-- The pause of a return, in which the line has ended and its command is not started yet. -/
def pauseOfReturn (stage : Stage) : Stage × Option Halt :=
  stage.perform setting (.hold Session.actionPause stage.session.submit.2)

/-- A return starts its command exactly once and nothing else, unless its pause is cut short: then
the return is over. -/
theorem commands_entering (stage : Stage) :
    ((stage.pauseOfReturn setting).2 = none →
      (stage.execute setting .enter).1.session.commands
        = stage.session.commands ++ Act.launch ⟨stage.session, .enter⟩ stage.session.pending) ∧
    ((stage.pauseOfReturn setting).2 ≠ none →
      stage.execute setting .enter = stage.pauseOfReturn setting ∧
      (stage.execute setting .enter).1.session.commands = stage.session.commands) := by
  have hexecute : stage.execute setting .enter
      = andThen (stage.pauseOfReturn setting) (performAll setting
          (if stage.session.submit.1.isEmpty then []
            else stage.session.submit.2.running setting.commands stage.session.submit.1)) :=
    performAll_cons setting _ _ stage
  have hcommands : (stage.pauseOfReturn setting).1.session.commands = stage.session.commands := by
    rw [pauseOfReturn, session_perform]
    rfl
  rw [hexecute]
  rcases hpause : stage.pauseOfReturn setting with ⟨paused, _ | halt⟩ <;> rw [hpause] at hcommands
  · refine ⟨fun _ => ?_, fun h => absurd rfl h⟩
    rw [andThen_none, Act.launch_enter]
    split
    · rw [performAll_nil, hcommands, List.append_nil]
    · obtain ⟨note, output, hrunning, hkeeps⟩ :=
        stage.session.submit.2.running_eq setting.commands stage.session.submit.1
      rw [hrunning]
      -- noting and starting a command cannot fail, and the output starts nothing more
      simp only [performAll_cons, perform, andThen_none]
      rw [commands_performAll setting hkeeps]
      rfl
  · constructor
    · intro h
      cases h
    · exact fun _ => ⟨rfl, hcommands⟩

/-- A step starts what it calls for with the line that is pending, whether it comes to a halt or not;
only a return whose pause is cut short starts nothing. -/
theorem commands_execute (stage : Stage) (step : Step) :
    (stage.execute setting step).1.session.commands
        = stage.session.commands ++ Act.launch ⟨stage.session, step⟩ stage.session.pending ∨
      step = .enter ∧ stage.execute setting step = stage.pauseOfReturn setting ∧
        (stage.pauseOfReturn setting).2 ≠ none ∧
        (stage.execute setting step).1.session.commands = stage.session.commands := by
  by_cases hstep : step = .enter
  · rw [hstep]
    by_cases hpause : (stage.pauseOfReturn setting).2 = none
    · exact .inl ((commands_entering setting stage).1 hpause)
    · obtain ⟨hover, hcommands⟩ := (commands_entering setting stage).2 hpause
      exact .inr ⟨rfl, hover, hpause, hcommands⟩
  · have hlaunch : Act.launch ⟨stage.session, step⟩ stage.session.pending = [] := by
      cases step with
      | enter => exact absurd rfl hstep
      | _ => rfl
    rw [hlaunch, List.append_nil]
    exact .inl (commands_performAll setting (stage.session.keeps_cues setting.commands hstep))

/-! ## Runs -/

/-- Records performed without a halt keep the session in step with their acts. -/
theorem inStep_performRecords {records : List Json} {past : List Act} {stage now : Stage}
    (h : InStep past stage.session)
    (hnow : stage.performRecords setting records = (now, none)) :
    InStep (past ++ acts setting.commands stage.session records) now.session := by
  induction records generalizing past stage with
  | nil =>
      obtain rfl : stage = now := congrArg Prod.fst hnow
      rw [acts, List.append_nil]
      exact h
  | cons record rest ih =>
      rw [performRecords_cons] at hnow
      obtain ⟨next, hrecord, hrest⟩ := andThen_eq_none hnow
      cases hstep : Step.ofRecord record with
      | error error =>
          rw [executeRecord, hstep] at hrecord
          cases hrecord
      | ok step =>
          rw [executeRecord, hstep] at hrecord
          have hnext : next.session
              = stage.session.after (step.cues setting.commands stage.session) :=
            session_performAll setting hrecord
          have hinStep := h.step setting.commands step
          rw [← hnext] at hinStep
          rw [acts, hstep]
          dsimp only
          rw [← hnext, List.append_cons]
          exact ih hinStep hrest

end Stage

/-- What is typed is what is run.  From a fresh session, after records without a halt: the run goes on
from here; the pending text ends the buffer and is the line that the keys have typed since the last
return or clearing, and the commands started are those that such lines called for.  The next step
starts what it calls for, unless it is a return that is cut short in its pause.  And at every moment
of these records and of those that follow, a command is started only while nothing is pending. -/
theorem typed_is_run (setting : Setting) (stage now : Stage) (records : List Json)
    (hfresh : stage.session = .empty)
    (hnow : stage.performRecords setting records = (now, none)) :
    (∀ more, stage.run setting (records ++ more) = now.run setting more) ∧
    InStep (acts setting.commands .empty records) now.session ∧
    (∀ step, (now.execute setting step).1.session.commands
          = now.session.commands
            ++ Act.launch ⟨now.session, step⟩ (typedLine (acts setting.commands .empty records)) ∨
        step = .enter ∧ now.execute setting step = now.pauseOfReturn setting ∧
          (now.pauseOfReturn setting).2 ≠ none ∧
          (now.execute setting step).1.session.commands = now.session.commands) ∧
    ∀ more moment cue, Stage.Reaches setting (records ++ more) stage moment cue →
      moment.session.StartsIdle (moment.perform setting cue).1.session := by
  have hinStep : InStep (acts setting.commands .empty records) now.session := by
    have hempty : InStep [] stage.session := by
      rw [hfresh]
      exact .empty
    have hperformed := Stage.inStep_performRecords setting hempty hnow
    rwa [hfresh] at hperformed
  refine ⟨fun more => ?_, hinStep, fun step => ?_, fun more moment cue h => h.startsIdle⟩
  · rw [Stage.run_eq_conclude, Stage.performRecords_append, hnow, Stage.andThen_none,
      Stage.run_eq_conclude]
  · rw [← hinStep.line]
    exact Stage.commands_execute setting now step

/-- A setting in which every command answers the same. -/
def answering : Setting where
  config := { (default : Config) with fps := .int 1, lineCount := 3, cursorGlyph := .string "_" }
  commands := fun _ _ => .started ["ok"] .quiet
  pacing := .immediate
  preview := fun _ => none
  entropy := .ofSeed 0

/-- A line that is corrected and run, and the beginning of another one. -/
def correctedLine : List Json :=
  [.object [("action", .string "type"), ("payload", .string "lx")],
    .object [("action", .string "delete"), ("payload", .int 1)],
    .object [("action", .string "type"), ("payload", .string "s ")],
    .object [("action", .string "enter")],
    .object [("action", .string "type"), ("payload", .string "p")]]

theorem typed_is_run_correctedLine :
    ∃ now, Stage.performRecords answering correctedLine default = (now, none) ∧
      now.session = ⟨"ls \nok\np", "p", [], ["ls"]⟩ ∧
      InStep (acts answering.commands .empty correctedLine) now.session :=
  ⟨_, rfl, rfl, (typed_is_run answering default _ correctedLine rfl rfl).2.1⟩

end Screencast
