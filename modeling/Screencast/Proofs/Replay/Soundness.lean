import Screencast.Proofs.Config.Accepted
import Screencast.Proofs.Replay.Endings
import Screencast.Program

/-!
# What accepted steps come to

A step that is accepted has little to fail with on its own: a text that is waited for does not appear in
time, or a command breaks off (`Step.Meets`).  Everything else comes from outside, from the preview or from
the user (`Setting.Disturbs`).  `Step.sound` says so for every stage, as long as the options are within the
range and the preview is given lines that fit into the memory.
-/

namespace Screencast

/-! ## What a step can meet with -/

/-- What keeps the output of a command from its end. -/
inductive Ending.Breaks (command : Text) : Ending → Halt → Prop
  | halted (halt : Halt) : Breaks command (.halted halt) halt
  /-- The command is ended by a signal. -/
  | terminated {status : Int} (signal : status < 0) :
      Breaks command (.exited status) (.failed (.command (.terminated command status.natAbs)))

/-- What keeps a command from its end. -/
inductive Launch.Breaks (command : Text) : Launch → Halt → Prop
  | refused (halt : Halt) : Breaks command (.refused halt) halt
  | started {texts : List Text} {ending : Ending} {halt : Halt}
      (breaks : ending.Breaks command halt) : Breaks command (.started texts ending) halt

/-- What a step meets with instead of being carried out. -/
inductive Step.Meets (commands : Commands) (session : Session) : Step → Halt → Prop
  /-- A text that is waited for, but not without a bound, is not on the screen. -/
  | late {text : Text} {timeout : Number} (absent : Text.occursIn text session.buffer = false)
      (bounded : ¬timeout.Boundless) :
      Meets commands session (.waitFor text timeout) (.failed (.timeout text))
  /-- What was typed is not blank, and as a command it breaks off. -/
  | broken {halt : Halt}
      (pending : session.pending.all (CodePoint.satisfies Text.isBlank) = false)
      (breaks : (commands session.commands session.submit.1).Breaks session.submit.1 halt) :
      Meets commands session .enter halt

/-- A step that waits without a bound for a text that is not on the screen. -/
inductive Step.Lingers (session : Session) : Step → Prop
  | waiting {text : Text} {timeout : Number} (absent : Text.occursIn text session.buffer = false)
      (boundless : timeout.Boundless) : Lingers session (.waitFor text timeout)

/-- What halts a replay from outside: the preview fails, or the user interrupts a pause. -/
inductive Setting.Disturbs (setting : Setting) : Halt → Prop
  | unseen {frame : Frame} {failure : Failure} (fails : setting.preview frame = some failure) :
      Disturbs setting (.failed failure)
  | interrupted {interrupts : Nat → Bool} {events : Nat}
      (pacing : setting.pacing = .realTime interrupts) (interrupt : interrupts events = true) :
      Disturbs setting .interrupted

/-! ## The halts on a sheet -/

namespace Session

variable (session : Session)

@[simp] theorem firstHalt?_typing (text : Text) : firstHalt? (session.typing text) = none := by
  induction text generalizing session with
  | nil => rfl
  | cons c rest ih =>
      rw [typing, firstHalt?_cons]
      exact ih _

@[simp] theorem firstHalt?_deleting (count : Nat) :
    firstHalt? (session.deleting count) = none := by
  induction count generalizing session with
  | zero => rfl
  | succ count ih =>
      rw [deleting]
      split
      · rfl
      · rw [firstHalt?_cons]
        exact ih _

@[simp] theorem firstHalt?_receiving (texts : List Text) :
    firstHalt? (session.receiving texts) = none := by
  induction texts generalizing session with
  | nil => rfl
  | cons text rest ih =>
      rw [receiving, firstHalt?_cons]
      exact ih _

@[simp] theorem firstHalt?_looking (count duration : Nat) :
    firstHalt? (List.replicate count (.hold duration session)) = none := by
  induction count with
  | zero => rfl
  | succ count ih =>
      rw [List.replicate_succ, firstHalt?_cons]
      exact ih

variable {session} {commands : Commands} {command : Text} {halt : Halt}

theorem firstHalt?_ending_iff {ending : Ending} :
    firstHalt? (session.ending command ending) = some halt ↔ ending.Breaks command halt := by
  cases ending with
  | halted reason =>
      have hhalt : firstHalt? (session.ending command (.halted reason)) = some reason := rfl
      rw [hhalt, Option.some.injEq]
      constructor
      · rintro rfl
        exact .halted reason
      · rintro ⟨⟩
        rfl
  | quiet =>
      have hnone : firstHalt? (session.ending command .quiet) = none := rfl
      rw [hnone]
      refine iff_of_false (Option.some_ne_none halt).symm ?_
      rintro ⟨⟩
  | exited status =>
      simp only [ending]
      by_cases hsignal : status < 0
      · rw [if_pos hsignal]
        constructor
        · rintro ⟨⟩
          exact .terminated hsignal
        · rintro ⟨⟩
          rfl
      · have hnote (entry : LogEntry) :
            firstHalt? (if status = 0 then [] else [.log entry]) = none := by
          split <;> rfl
        rw [if_neg hsignal, firstHalt?_append, hnote]
        refine iff_of_false (Option.some_ne_none halt).symm ?_
        rintro ⟨⟩
        contradiction

theorem firstHalt?_running_iff :
    firstHalt? (session.running commands command) = some halt ↔
      (commands session.commands command).Breaks command halt := by
  simp only [running, firstHalt?_cons, Cue.halt?, Option.none_or]
  cases commands session.commands command with
  | refused reason =>
      constructor
      · rintro ⟨⟩
        exact .refused halt
      · rintro ⟨⟩
        rfl
  | started texts ending =>
      rw [firstHalt?_append, firstHalt?_receiving, Option.none_or, firstHalt?_ending_iff]
      constructor
      · exact .started
      · rintro ⟨⟩
        assumption

theorem firstHalt?_entering_iff :
    firstHalt? (session.entering commands) = some halt ↔
      session.pending.all (CodePoint.satisfies Text.isBlank) = false ∧
        (commands session.commands session.submit.1).Breaks session.submit.1 halt := by
  have hcues : session.entering commands = .hold actionPause session.submit.2 ::
      if session.submit.1.isEmpty then [] else session.submit.2.running commands session.submit.1 :=
    rfl
  have hempty : session.submit.1.isEmpty
      = session.pending.all (CodePoint.satisfies Text.isBlank) := Text.isEmpty_trimWhile _ _
  rw [hcues, hempty, firstHalt?_cons, Cue.halt?, Option.none_or]
  cases session.pending.all (CodePoint.satisfies Text.isBlank) with
  | true => exact iff_of_false (Option.some_ne_none halt).symm fun h => Bool.noConfusion h.1
  | false =>
      rw [if_neg Bool.false_ne_true, firstHalt?_running_iff]
      exact (and_iff_right rfl).symm

theorem firstHalt?_waiting_iff {text : Text} {timeout : Number} :
    firstHalt? (session.waiting text timeout) = some halt ↔
      Text.occursIn text session.buffer = false ∧
        (¬timeout.Boundless ∧ halt = .failed (.timeout text) ∨
          timeout.Boundless ∧ halt = .endless) := by
  unfold waiting
  cases Text.occursIn text session.buffer with
  | true => exact iff_of_false (Option.some_ne_none halt).symm fun h => Bool.noConfusion h.1
  | false =>
      rw [if_neg Bool.false_ne_true]
      cases hsteps : timeout.stepsToReach pollInterval with
      | none =>
          have hboundless := Number.stepsToReach_eq_none_iff.mp hsteps
          have hhalt : firstHalt? [.hold pollInterval session, .halt .endless] = some .endless := rfl
          simp only [hhalt, hboundless, Option.some.injEq, eq_comm, true_and, not_true, false_and,
            false_or]
      | some polls =>
          have hbounded : ¬timeout.Boundless := fun h => by
            rw [Number.stepsToReach_eq_none_iff.mpr h] at hsteps
            cases hsteps
          have hhalt : firstHalt? [.halt (.failed (.timeout text))]
              = some (.failed (.timeout text)) := rfl
          simp only [firstHalt?_append, firstHalt?_looking, Option.none_or, hhalt, hbounded,
            Option.some.injEq, eq_comm, true_and, not_false_iff, false_and, or_false]

end Session

/-- The first halt on the sheet of a step is what the step meets with, unless it lingers. -/
theorem Step.firstHalt?_cues_iff {commands : Commands} {session : Session} {step : Step} {halt : Halt} :
    firstHalt? (step.cues commands session) = some halt ↔
      step.Meets commands session halt ∨ step.Lingers session ∧ halt = .endless := by
  cases step with
  | typeText text =>
      rw [cues, Session.firstHalt?_typing]
      refine iff_of_false (Option.some_ne_none halt).symm ?_
      rintro (hmeets | ⟨⟨⟩, -⟩)
      cases hmeets
  | delete count =>
      rw [cues, Session.firstHalt?_deleting]
      refine iff_of_false (Option.some_ne_none halt).symm ?_
      rintro (hmeets | ⟨⟨⟩, -⟩)
      cases hmeets
  | paste | copy span =>
      refine iff_of_false (Option.some_ne_none halt).symm ?_
      rintro (hmeets | ⟨⟨⟩, -⟩)
      cases hmeets
  | clear =>
      rw [cues, Session.clearing, firstHalt?_append, Session.firstHalt?_typing]
      refine iff_of_false (Option.some_ne_none halt).symm ?_
      rintro (hmeets | ⟨⟨⟩, -⟩)
      cases hmeets
  | enter =>
      rw [cues, Session.firstHalt?_entering_iff]
      constructor
      · rintro ⟨hpending, hbreaks⟩
        exact .inl (.broken hpending hbreaks)
      · rintro (hmeets | ⟨⟨⟩, -⟩)
        cases hmeets with
        | broken hpending hbreaks => exact ⟨hpending, hbreaks⟩
  | waitFor text timeout =>
      rw [cues, Session.firstHalt?_waiting_iff]
      constructor
      · rintro ⟨habsent, ⟨hbounded, rfl⟩ | ⟨hboundless, rfl⟩⟩
        · exact .inl (.late habsent hbounded)
        · exact .inr ⟨.waiting habsent hboundless, rfl⟩
      · rintro (⟨habsent, hbounded⟩ | ⟨⟨habsent, hboundless⟩, rfl⟩)
        · exact ⟨habsent, .inl ⟨hbounded, rfl⟩⟩
        · exact ⟨habsent, .inr ⟨hboundless, rfl⟩⟩

/-! ## What performing can be halted by -/

/-- An action that halts for no reason but the given ones. -/
def HaltsFor (reasons : Halt → Prop) (result : Stage × Option Halt) : Prop :=
  ∀ halt, result.2 = some halt → reasons halt

namespace HaltsFor

variable {reasons : Halt → Prop} {result : Stage × Option Halt}

theorem of_none (h : result.2 = none) : HaltsFor reasons result := by
  intro halt hhalt
  rw [h] at hhalt
  cases hhalt

theorem of_some {stage : Stage} {halt : Halt} (h : reasons halt) :
    HaltsFor reasons (stage, some halt) := by
  rintro _ ⟨⟩
  exact h

theorem mono {others : Halt → Prop} (h : HaltsFor reasons result)
    (hmono : ∀ halt, reasons halt → others halt) : HaltsFor others result :=
  fun halt hhalt => hmono halt (h halt hhalt)

theorem andThen {next : Stage → Stage × Option Halt} (h : HaltsFor reasons result)
    (hnext : ∀ stage, HaltsFor reasons (next stage)) :
    HaltsFor reasons (Stage.andThen result next) := by
  obtain ⟨stage, _ | halt⟩ := result
  · exact hnext stage
  · exact of_some (h halt rfl)

end HaltsFor

namespace Stage

variable {setting : Setting} {duration : Number}

theorem haltsFor_pause (hseconds : ∃ seconds, duration.div (.int 1000) = .ok seconds)
    (stage : Stage) : HaltsFor setting.Disturbs (stage.pause setting.pacing duration) := by
  obtain ⟨seconds, hseconds⟩ := hseconds
  cases hpacing : setting.pacing with
  | immediate => exact .of_none rfl
  | realTime interrupts =>
      simp only [pause, hseconds]
      split
      · cases hinterrupt : interrupts stage.journal.size with
        | false => exact .of_none rfl
        | true => exact .of_some (.interrupted hpacing hinterrupt)
      · exact .of_none rfl

/-! A quiet replay says what the configuration contributes: with it nothing is ever halted but by the
cues. -/

variable (h : (quietSetting setting.config).Steady)

include h

theorem haltsFor_showView (buffer : Text) (stage : Stage) :
    HaltsFor setting.Disturbs (stage.showView setting (Frame.views setting.config buffer)) := by
  obtain ⟨frame, hframe⟩ := h.project buffer stage.frames.size
  have hview : (Frame.views setting.config buffer).at setting.config stage.frames.size
      = .ok frame := hframe
  simp only [showView, hview]
  cases hpreview : setting.preview frame with
  | none => exact .of_none rfl
  | some failure => exact .of_some (.unseen hpreview)

theorem haltsFor_advance (hlasts : setting.config.Lasts duration)
    (hseconds : ∃ seconds, duration.div (.int 1000) = .ok seconds) (stage : Stage) :
    HaltsFor setting.Disturbs (haltOf (stage.advance setting duration)) := by
  obtain ⟨count, hcount⟩ := hlasts
  rw [haltOf_advance]
  refine (haltsFor_showView h _ stage).andThen fun shown => ?_
  rw [haltOf_elapseViews, hcount]
  exact (HaltsFor.of_none (h.clear.recordViews _ _ shown)).andThen (haltsFor_pause hseconds)

/-- A cue is performed unless it is a halt itself, or disturbed. -/
theorem haltsFor_perform {cue : Cue} (hpaced : cue.Paced) (stage : Stage) :
    HaltsFor (fun halt => cue.halt? = some halt ∨ setting.Disturbs halt)
      (stage.perform setting cue) := by
  cases cue with
  | key pressed session =>
      obtain ⟨delay, hdelay, hlasts⟩ := h.keys pressed stage.rhythm
      have hkey : setting.config.keyDelay pressed stage.rhythm.next.1 = .ok delay := hdelay
      simp only [perform, hkey]
      exact (haltsFor_advance h hlasts ⟨_, rfl⟩ _).mono fun _ => .inr
  | hold duration session =>
      obtain rfl : duration = Session.actionPause := hpaced
      have hseconds : ∃ seconds, (Number.int Session.actionPause).div (.int 1000) = .ok seconds :=
        ⟨_, rfl⟩
      exact (haltsFor_advance h h.pauses hseconds _).mono fun _ => .inr
  | flash session =>
      simp only [perform, flash_eq]
      refine HaltsFor.mono ?_ fun _ => .inr
      exact (haltsFor_showView h _ _).andThen fun shown => .of_none (h.clear.recordView _ shown)
  | turn session => exact .of_none rfl
  | log entry => exact .of_none rfl
  | halt reason => exact .of_some (.inl rfl)

/-- A sheet is performed up to its first halt unless it is disturbed before. -/
theorem haltsFor_performAll {cues : List Cue} (hpaced : ∀ cue ∈ cues, cue.Paced) (stage : Stage) :
    HaltsFor (fun halt => firstHalt? cues = some halt ∨ setting.Disturbs halt)
      (stage.performAll setting cues) := by
  induction cues generalizing stage with
  | nil => exact .of_none rfl
  | cons cue rest ih =>
      rw [List.forall_mem_cons] at hpaced
      have hcue := haltsFor_perform h hpaced.1 stage
      rw [performAll_cons]
      cases hhalt : cue.halt? with
      | none =>
          simp only [firstHalt?_cons, hhalt, Option.none_or]
          rw [hhalt] at hcue
          have hdisturbed : HaltsFor setting.Disturbs (stage.perform setting cue) :=
            hcue.mono fun halt hreason => hreason.resolve_left (Option.some_ne_none halt).symm
          exact (hdisturbed.mono fun _ => .inr).andThen fun next => ih hpaced.2 next
      | some reason =>
          obtain rfl : cue = .halt reason := by
            cases cue <;> cases hhalt
            rfl
          exact .of_some (.inl rfl)

end Stage

/-! ## Steps that do not go wrong -/

/-- What a step can come to when its record is carried out on a stage. -/
structure Step.Sound (setting : Setting) (stage : Stage) (record : Json) (step : Step) : Prop where
  /-- If it halts, the step meets with the halt, or the replay is disturbed. -/
  halts : ∀ raised halt, (Course.start stage [record]).Yields setting (raised, some halt) →
    step.Meets setting.commands stage.session halt ∨ setting.Disturbs halt
  /-- Undisturbed, it does come to whatever the step meets with. -/
  meets : (∀ halt, ¬setting.Disturbs halt) → ∀ halt,
    step.Meets setting.commands stage.session halt →
      ∃ raised, (Course.start stage [record]).Yields setting (raised, some halt)
  /-- Undisturbed, it is carried out if the step meets with nothing and does not linger. -/
  completes : (∀ halt, ¬setting.Disturbs halt) →
    (∀ halt, ¬step.Meets setting.commands stage.session halt) → ¬step.Lingers stage.session →
      ∃ ended, (Course.start stage [record]).Yields setting (ended, none)
  /-- A number of characters to delete passes the check that is made again before deleting. -/
  deletes : ∀ count : Nat, step = .delete count →
    stage.deleteValue setting (.int count) = stage.execute setting step

namespace Setting

variable {setting : Setting}

/-- A setting that disturbs nothing, with a configuration that halts nothing. -/
theorem steady_of_undisturbed (h : (quietSetting setting.config).Steady)
    (hundisturbed : ∀ halt, ¬setting.Disturbs halt) : setting.Steady where
  glyph := h.glyph
  projects := h.projects
  preview frame := by
    by_contra hfails
    obtain ⟨failure, hfailure⟩ := Option.ne_none_iff_exists'.mp hfails
    exact hundisturbed _ (.unseen hfailure)
  pacing := by
    cases hpacing : setting.pacing with
    | immediate => trivial
    | realTime interrupts =>
        intro events
        by_contra hinterrupt
        exact hundisturbed _ (.interrupted hpacing (Bool.eq_true_of_not_eq_false hinterrupt))
  pauses := h.pauses
  keys := h.keys

end Setting

namespace Step

variable {setting : Setting} {stage raised : Stage} {record : Json} {step : Step} {halt : Halt}

theorem Meets.not_lingers {commands : Commands} {session : Session}
    (h : step.Meets commands session halt) : ¬step.Lingers session := by
  rintro ⟨-, hboundless⟩
  cases h with
  | late _ hbounded => exact hbounded hboundless

/-- The wait of a step that does not linger has a bound. -/
theorem not_boundless_of_not_lingers (hparsed : Step.ofRecord record = .ok step)
    (hlingers : ¬step.Lingers stage.session) (text : Text) (timeout : Number)
    (hwait : Step.ofRecord record = .ok (.waitFor text timeout))
    (habsent : Text.occursIn text stage.session.buffer = false) : ¬timeout.Boundless := by
  intro hboundless
  obtain rfl := Except.ok.inj (hparsed.symm.trans hwait)
  exact hlingers ⟨habsent, hboundless⟩

/-- A step that lingers comes to no halt unless it is disturbed. -/
theorem Lingers.disturbs (hlingers : step.Lingers stage.session)
    (hparsed : Step.ofRecord record = .ok step) (h : (quietSetting setting.config).Steady)
    (hyields : (Course.start stage [record]).Yields setting (raised, some halt)) :
    setting.Disturbs halt := by
  obtain ⟨habsent, hboundless⟩ := hlingers
  rw [Course.yields_of_inl (Course.pass_of_wait hparsed)] at hyields
  obtain ⟨count, hpolls, -⟩ := Course.exists_polls_of_yields hboundless habsent hyields
  have hpaced : ∀ cue ∈ List.replicate count (Cue.hold Session.pollInterval stage.session),
      cue.Paced := by
    intro cue hcue
    rw [List.eq_of_mem_replicate hcue]
    exact rfl
  have hhalts := Stage.haltsFor_performAll h hpaced stage halt (congrArg Prod.snd hpolls)
  rw [Session.firstHalt?_looking] at hhalts
  exact hhalts.resolve_left (Option.some_ne_none halt).symm

/-- A step that does not linger comes to the first halt of its sheet unless it is disturbed. -/
theorem meets_or_disturbs (hlingers : ¬step.Lingers stage.session)
    (hparsed : Step.ofRecord record = .ok step) (h : (quietSetting setting.config).Steady)
    (hyields : (Course.start stage [record]).Yields setting (raised, some halt)) :
    step.Meets setting.commands stage.session halt ∨ setting.Disturbs halt := by
  have hcues := Stage.haltsFor_performAll h (step.cues_paced setting.commands stage.session) stage
  rw [← Stage.executeRecord_of_step hparsed] at hcues
  rcases hrecord : stage.executeRecord setting record with ⟨next, _ | reason⟩
  · rw [Course.yields_of_executeRecord hrecord] at hyields
    have hended : Course.pass setting (Course.start next []) = .inr (next, none) := rfl
    rw [Course.yields_of_inr hended] at hyields
    cases hyields
  · rw [Course.yields_of_executeRecord_halts hrecord
      (not_boundless_of_not_lingers hparsed hlingers)] at hyields
    obtain ⟨-, rfl⟩ : next = raised ∧ reason = halt := by simpa using hyields
    obtain hsheet | hdisturbs := hcues reason (congrArg Prod.snd hrecord)
    · obtain hmeets | ⟨hlater, -⟩ := firstHalt?_cues_iff.mp hsheet
      · exact .inl hmeets
      · exact absurd hlater hlingers
    · exact .inr hdisturbs

theorem deleteValue_natCast (count : Nat) :
    stage.deleteValue setting (.int count) = stage.execute setting (.delete count) := by
  have hnonnegative : ¬(count : Int) < 0 := by omega
  simp only [Stage.deleteValue, hnonnegative, if_false, Int.toNat_natCast]
  rfl

/-- What an accepted step comes to on any stage, with options within the range. -/
theorem sound {glyph : Text} (hparsed : Step.ofRecord record = .ok step)
    (hrange : setting.config.WithinRange) (hfinite : setting.config.fps.IsFinite)
    (hglyph : setting.config.cursorGlyph = .string glyph)
    (hnumbers : setting.config.lineNumbers.isSet = true →
      setting.config.lineNumberWidth ≤ Text.mostCharacters) (stage : Stage) :
    step.Sound setting stage record := by
  have hquiet : (quietSetting setting.config).Steady := by
    have hprojects := hrange.projects hfinite hnumbers
    exact Config.WithinRange.steady hrange hglyph hfinite hprojects (fun _ => rfl) trivial
  have hperforms (hundisturbed : ∀ halt, ¬setting.Disturbs halt) :
      ∃ ended, stage.executeRecord setting record
        = (ended, firstHalt? (step.cues setting.commands stage.session)) := by
    have hsteady := Setting.steady_of_undisturbed hquiet hundisturbed
    obtain ⟨ended, -, hall⟩ :=
      hsteady.performAll (step.cues_paced setting.commands stage.session) stage
    exact ⟨ended, (Stage.executeRecord_of_step hparsed).trans hall⟩
  constructor
  case halts =>
    intro raised halt hyields
    by_cases hlingers : step.Lingers stage.session
    · exact .inr (hlingers.disturbs hparsed hquiet hyields)
    · exact meets_or_disturbs hlingers hparsed hquiet hyields
  case meets =>
    intro hundisturbed halt hmeets
    obtain ⟨raised, hrecord⟩ := hperforms hundisturbed
    rw [firstHalt?_cues_iff.mpr (.inl hmeets)] at hrecord
    have hbound := not_boundless_of_not_lingers hparsed hmeets.not_lingers
    exact ⟨raised, (Course.yields_of_executeRecord_halts hrecord hbound).mpr rfl⟩
  case completes =>
    intro hundisturbed hnone hlingers
    obtain ⟨ended, hrecord⟩ := hperforms hundisturbed
    have hsheet : firstHalt? (step.cues setting.commands stage.session) = none := by
      rw [Option.eq_none_iff_forall_ne_some]
      intro halt hhalt
      obtain hmeets | ⟨hlater, -⟩ := firstHalt?_cues_iff.mp hhalt
      · exact hnone halt hmeets
      · exact hlingers hlater
    rw [hsheet] at hrecord
    exact ⟨ended, (Course.yields_of_executeRecord hrecord).mpr ((Course.yields_of_inr rfl).mpr rfl)⟩
  case deletes =>
    rintro count rfl
    exact deleteValue_natCast count

/-- A wait of one and a half seconds for a text that is not there comes to its time limit. -/
theorem sound_shortWait :
    (Step.waitFor "x" (.int 1500)).Sound (quietSetting usualConfig) default
        (waitRecord "x" (.int 1500)) ∧
      ∃ raised, (Course.start default [waitRecord "x" (.int 1500)]).Yields
        (quietSetting usualConfig) (raised, some (.failed (.timeout "x"))) := by
  have hrange : (quietSetting usualConfig).config.WithinRange :=
    usualConfig_moderate.withinRange (le_two_pow_of_small (by decide))
  have hsound : (Step.waitFor "x" (.int 1500)).Sound (quietSetting usualConfig) default
      (waitRecord "x" (.int 1500)) := sound rfl hrange trivial rfl nofun default
  have hquiet : ∀ halt, ¬(quietSetting usualConfig).Disturbs halt := by
    rintro halt (⟨⟨⟩⟩ | ⟨⟨⟩, -⟩)
  have habsent : Text.occursIn "x" (default : Stage).session.buffer = false := rfl
  exact ⟨hsound, hsound.meets hquiet _ (.late habsent nofun)⟩

end Step

/-! ## Settings in which steps go wrong -/

/-- A setting in which no paste is carried out, though there is nothing that a paste can meet with. -/
def Setting.Spoils (setting : Setting) : Prop :=
  (∀ session halt, ¬Step.paste.Meets setting.commands session halt) ∧
    Step.ofRecord (Stage.bareRecord "paste") = .ok .paste ∧
    ∀ stage, ∃ raised halt,
      (Course.start stage [Stage.bareRecord "paste"]).Yields setting (raised, some halt)

namespace Setting

variable {setting : Setting}

theorem spoils_of_advance
    (h : ∀ stage : Stage,
      (Stage.haltOf (stage.advance setting (.int Session.actionPause))).2 ≠ none) :
    setting.Spoils := by
  have hparsed : Step.ofRecord (Stage.bareRecord "paste") = .ok .paste := rfl
  have hunmet (session : Session) (halt : Halt) :
      ¬Step.paste.Meets setting.commands session halt := by
    intro hmeets
    cases hmeets
  refine ⟨hunmet, hparsed, fun stage => ?_⟩
  have hpaste := h { stage with session := stage.session.type stage.session.clipboard }
  obtain ⟨raised, halt, hhalted⟩ : ∃ raised halt, stage.perform setting
      (.hold Session.actionPause (stage.session.type stage.session.clipboard))
        = (raised, some halt) := by
    obtain ⟨halt, hhalt⟩ := Option.ne_none_iff_exists'.mp hpaste
    exact ⟨_, halt, Prod.ext rfl hhalt⟩
  refine ⟨raised, halt, ?_⟩
  rw [Course.yields_of_inl (Course.pass_of_step hparsed nofun)]
  exact (Course.yields_of_cue_halted hhalted).mpr rfl

theorem spoils_of_unshown
    (h : ∀ buffer (stage : Stage),
      (stage.showView setting (Frame.views setting.config buffer)).2 ≠ none) :
    setting.Spoils := by
  refine spoils_of_advance fun stage => ?_
  have hshown := h stage.session.buffer stage
  rw [Stage.haltOf_advance]
  rcases hview : stage.showView setting (Frame.views setting.config stage.session.buffer) with
    ⟨shown, _ | halt⟩
  · exact absurd (congrArg Prod.snd hview) hshown
  · exact Option.some_ne_none _

theorem spoils_of_elapse
    (h : ∀ views (stage : Stage), (Stage.haltOf (stage.elapseViews setting.config setting.pacing views
      (.int Session.actionPause))).2 ≠ none) :
    setting.Spoils := by
  refine spoils_of_advance fun stage => ?_
  rw [Stage.haltOf_advance]
  rcases stage.showView setting (Frame.views setting.config stage.session.buffer) with
    ⟨shown, _ | halt⟩
  · exact h _ shown
  · exact Option.some_ne_none _

end Setting

/-- Line numbers that fit into no memory. -/
def wideNumbers : Config :=
  { usualConfig with lineNumbers := .bool true, lineNumberWidth := 10 ^ 20 }

/-- An interval of the cursor within the range, but not its product with the frame rate, which is 30.5. -/
def slowCursor : Config :=
  { usualConfig with
    fps := .real (.finite false (61 * 2 ^ 47) (-48))
    cursorBlink := 10 ^ 308 }

/-- So many frames a second that those of a pause are out of range. -/
def fastFrames : Config := { usualConfig with fps := .real (.finite false (2 ^ 52) 968) }

/-- A preview in a box that is wider than any text. -/
def boxedSetting : Setting :=
  { quietSetting usualConfig with preview := Execution.previewOf (some ⟨10 ^ 20, .null⟩) }

/-- A replay in which every pause is interrupted. -/
def interruptedSetting : Setting :=
  { quietSetting usualConfig with pacing := .realTime fun _ => true }

theorem wideNumbers_withinRange : wideNumbers.WithinRange := by
  have husual : usualConfig.WithinRange :=
    usualConfig_moderate.withinRange (le_two_pow_of_small (by decide))
  exact ⟨husual.blink, husual.pause, husual.delay, husual.typing, husual.keys⟩

/-- Line numbers that are too wide and a cursor without an interval keep everything from being shown. -/
theorem spoils_of_not_projects {config : Config} {glyph : Text}
    (hglyph : config.cursorGlyph = .string glyph) (h : ¬config.Projects) :
    (quietSetting config).Spoils := by
  refine Setting.spoils_of_unshown fun buffer stage => ?_
  have hview : (Frame.views config buffer).at config stage.frames.size
      = project config buffer stage.frames.size := rfl
  have hconfig : (quietSetting config).config = config := rfl
  rw [Stage.showView, hconfig, hview]
  cases hframe : project config buffer stage.frames.size with
  | ok frame => exact absurd ((project_isOk_iff hglyph _ _).mp ⟨frame, hframe⟩) h
  | error error => exact Option.some_ne_none _

theorem spoils_wideNumbers : (quietSetting wideNumbers).Spoils := by
  have hglyph : wideNumbers.cursorGlyph = .string "█" := rfl
  refine spoils_of_not_projects hglyph fun hprojects => ?_
  exact absurd (hprojects.numbers rfl) (by decide)

theorem spoils_slowCursor : (quietSetting slowCursor).Spoils := by
  have hglyph : slowCursor.cursorGlyph = .string "█" := rfl
  refine spoils_of_not_projects hglyph fun hprojects => ?_
  have hblinks : slowCursor.cursorBlink ≠ 0 := by
    decide +kernel
  have hblink : slowCursor.blinkFrames = .error .infinityToInteger := by
    decide +kernel
  obtain ⟨interval, hinterval⟩ := hprojects.blink rfl hblinks
  rw [hblink] at hinterval
  cases hinterval

theorem spoils_fastFrames : (quietSetting fastFrames).Spoils := by
  refine Setting.spoils_of_elapse fun views stage => ?_
  have hcount : (quietSetting fastFrames).config.frameCount (.int Session.actionPause)
      = .error .infinityToInteger := by
    decide +kernel
  rw [Stage.haltOf_elapseViews, hcount]
  exact Option.some_ne_none _

theorem spoils_boxed : boxedSetting.Spoils := by
  refine Setting.spoils_of_unshown fun buffer stage => ?_
  have hfails (frame : Frame) : boxedSetting.preview frame = some (.preview .range) := rfl
  rw [Stage.showView]
  simp only [hfails]
  split <;> exact Option.some_ne_none _

theorem spoils_interrupted : interruptedSetting.Spoils := by
  refine Setting.spoils_of_elapse fun views stage => ?_
  rw [Stage.haltOf_elapseViews]
  split
  · exact Option.some_ne_none _
  · rcases stage.recordViews _ views _ with ⟨recorded, _ | halt⟩ <;>
      exact Option.some_ne_none _

/-- What a sound step cannot do without: line numbers that fit into the memory, products with the frame
rate within the range, a preview that shows every frame, and pauses that are not interrupted. -/
theorem spoils_each :
    (wideNumbers.WithinRange ∧ wideNumbers.fps = .int 30 ∧ (quietSetting wideNumbers).Spoils) ∧
      (slowCursor.fps.IsFinite ∧ slowCursor.fps.isPositive = true ∧
        (∃ x : Binary64, (Number.int slowCursor.cursorBlink).toReal = .ok x ∧ x.IsFinite) ∧
        (quietSetting slowCursor).Spoils) ∧
      (fastFrames.fps.IsFinite ∧ fastFrames.fps.isPositive = true ∧
        (quietSetting fastFrames).Spoils) ∧
      boxedSetting.Spoils ∧ interruptedSetting.Spoils := by
  have hinterval : (Number.int slowCursor.cursorBlink).toReal
      = .ok (.finite false 5010420900022432 971) := by
    decide +kernel
  exact ⟨⟨wideNumbers_withinRange, rfl, spoils_wideNumbers⟩,
    ⟨trivial, rfl, ⟨_, hinterval, trivial⟩, spoils_slowCursor⟩,
    ⟨trivial, rfl, spoils_fastFrames⟩, spoils_boxed, spoils_interrupted⟩

end Screencast
