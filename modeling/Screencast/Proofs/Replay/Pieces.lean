import Screencast.Proofs.Replay.Dark
import Screencast.Proofs.Replay.Delivery
import Screencast.Proofs.Replay.Endings

/-!
# What the pieces of an output change

How the outputs of commands are cut into pieces decides how many frames are recorded for them, and
nothing else: `run_recut` compares the runs of a script whose commands write the same in other pieces.

In a clear setting the two runs go on side by side.  Each output leaves their stages alike, while one
recording may fall behind the other, and from then on the same buffers are recorded at other places.  In
a dark one both halt before the first command.
-/

namespace Screencast

/-! ## Two runs side by side -/

namespace Stage

variable (setting : Setting)

/-- Concluding a replay is no pause. -/
theorem alike_conclude (stage : Stage) (halt : Halt) :
    (stage.conclude setting halt).1.Alike
      { stage with session := stage.session.concluded (some halt) } := by
  obtain ⟨hsession, hrhythm⟩ := holds_conclude setting stage halt
  refine ⟨hsession, hrhythm, ?_⟩
  cases halt with
  | interrupted => exact (Alike.note rfl stage).sleeps
  | endless => rfl
  | failed failure =>
      have hflash := (alike_flash setting (stage.withError failure.text)).sleeps
      have herror : (stage.withError failure.text).sleeps = stage.sleeps :=
        (Alike.note rfl stage).sleeps
      rw [← abort_eq_flash, herror] at hflash
      simp only [conclude]
      rcases habort : stage.abort setting failure.text with ⟨shown, _ | halt⟩ <;>
        rw [habort] at hflash <;> exact hflash

theorem reel_offering (commands : Commands) (cues : List Cue) (stage : Stage) :
    stage.reel (setting.offering commands) cues = stage.reel setting cues := by
  induction cues generalizing stage with
  | nil => rfl
  | cons cue rest ih =>
      rw [reel, reel, perform_offering]
      rcases stage.perform setting cue with ⟨next, _ | halt⟩
      · exact congrArg (cue.shots setting.config stage.rhythm ++ ·) (ih next)
      · rfl

theorem conclude_offering (commands : Commands) (stage : Stage) (halt : Halt) :
    stage.conclude (setting.offering commands) halt = stage.conclude setting halt := by
  cases halt <;> rfl

/-- A run with other commands performs another sheet in the same setting. -/
theorem run_offering (commands : Commands) (records : List Json) (stage : Stage) :
    stage.run (setting.offering commands) records
      = match stage.performAll setting (cueSheet commands stage.session records) with
        | (ended, none) => (ended, .success)
        | (ended, some halt) => ended.conclude setting halt := by
  rw [run_eq_conclude, performRecords_eq_performAll, performAll_offering]
  rfl

end Stage

namespace Setting.Clear

open Stage

variable {setting : Setting} (h : setting.Clear)

include h

/-- An output is received in the same way in whatever pieces. -/
theorem performAll_receiving (session : Session) (texts : List Text) (cues : List Cue)
    (stage : Stage) : ∃ next : Stage,
      next.Alike { stage with session := session.emit texts.flatten } ∧
      stage.performAll setting (.turn session :: (session.receiving texts ++ cues))
        = next.performAll setting cues ∧
      withoutPieces (stage.reel setting (.turn session :: (session.receiving texts ++ cues)))
        = withoutPieces (next.reel setting cues) := by
  obtain ⟨next, hnext, halike, -, hpieces⟩ :=
    h.receiving session texts (stage.bring (.turn session))
  have hturn : stage.perform setting (.turn session) = (stage.bring (.turn session), none) := rfl
  have hreceived : (stage.bring (.turn session)).session.after (session.receiving texts)
      = session.emit texts.flatten := by
    rw [← Session.received_eq_emit, ← Session.after_receiving]
    rfl
  rw [hreceived] at halike
  refine ⟨next, ⟨halike.session, halike.rhythm, halike.sleeps⟩, ?_, ?_⟩
  · rw [performAll_cons, hturn, andThen_none, performAll_append, hnext, andThen_none]
  · rw [reel_cons_of_none hturn, reel_append_of_none hnext, withoutPieces_append,
      withoutPieces_append, withoutPieces_eq_nil hpieces]
    rfl

/-- Sheets that differ in the pieces of outputs leave alike stages alike, and apart from the pieces they
leave the same shots. -/
theorem together_performAll {cues others : List Cue} (hsheet : RecutSheet cues others)
    {stage other : Stage} (halike : stage.Alike other) :
    Together (stage.performAll setting cues) (other.performAll setting others) ∧
      withoutPieces (stage.reel setting cues) = withoutPieces (other.reel setting others) := by
  induction hsheet generalizing stage other with
  | nil => exact ⟨⟨rfl, halike⟩, rfl⟩
  | @cons cue cues others later ih =>
      obtain ⟨hhalt, hnext⟩ := h.together_perform halike cue
      rw [performAll_cons, performAll_cons]
      rcases hcue : stage.perform setting cue with ⟨next, halt⟩
      rcases hcue' : other.perform setting cue with ⟨next', halt'⟩
      rw [hcue, hcue'] at hhalt hnext
      obtain rfl : halt = halt' := hhalt
      cases halt with
      | none =>
          obtain ⟨htogether, hshots⟩ := ih hnext
          refine ⟨htogether, ?_⟩
          rw [reel_cons_of_none hcue, reel_cons_of_none hcue', withoutPieces_append,
            withoutPieces_append, hshots, halike.rhythm]
      | some halt =>
          refine ⟨⟨rfl, hnext⟩, ?_⟩
          rw [reel_cons_of_some hcue, reel_cons_of_some hcue']
  | @output session texts pieces same cues others later ih =>
      obtain ⟨next, hnext, hperformed, hshots⟩ := h.performAll_receiving session texts cues stage
      obtain ⟨next', hnext', hperformed', hshots'⟩ :=
        h.performAll_receiving session pieces others other
      have hreceived : next.Alike next' := by
        rw [same] at hnext
        refine hnext.trans (.trans ?_ hnext'.symm)
        exact ⟨rfl, halike.rhythm, halike.sleeps⟩
      rw [hperformed, hperformed', hshots, hshots']
      exact ih hreceived

end Setting.Clear

/-! ## The runs of a script -/

/-- The shots of a run from the start. -/
def Setting.shots (setting : Setting) (records : List Json) : List Shot :=
  (Stage.initial setting.rhythm).shots setting records

/-- How many pieces of output the commands deliver that are started in a run from the start. -/
def Setting.delivered (setting : Setting) (records : List Json) : Nat :=
  setting.commands.delivered [] (setting.run records).1.session.commands

/-- The shots of a run account for its frames. -/
structure Setting.Accounts (setting : Setting) (records : List Json) : Prop where
  /-- The frames are the projections of the shots, in order. -/
  frames : (setting.run records).1.frames.toList.map Except.ok
    = projections setting.config 0 ((setting.shots records).map Shot.buffer)
  /-- There is one shot for each piece of output. -/
  pieces : (setting.shots records).countP Shot.piece = setting.delivered records

/-- What two runs have in common that differ in the pieces of outputs only. -/
structure SameButPieces (setting other : Setting) (records : List Json) : Prop where
  accounts : setting.Accounts records
  accounts' : other.Accounts records
  /-- The runs end alike. -/
  outcome : (setting.run records).2 = (other.run records).2
  /-- Terminal, started commands, typing rhythm and pauses are the same. -/
  alike : (setting.run records).1.Alike (other.run records).1
  /-- Without the pieces the shots are the same. -/
  rest : withoutPieces (setting.shots records) = withoutPieces (other.shots records)
  /-- The recordings differ by as many frames as pieces. -/
  count : (setting.run records).1.frames.size + other.delivered records
    = (other.run records).1.frames.size + setting.delivered records
  /-- Both runs end if no wait is without a bound and no command runs for ever. -/
  ends : setting.commands.End →
    (∀ record ∈ records, ∀ text timeout, Step.ofRecord record = .ok (.waitFor text timeout) →
      ¬timeout.Boundless) →
    (setting.run records).2 ≠ .endless ∧ (other.run records).2 ≠ .endless

/-- The number of frames is that of the pieces and of the other shots. -/
theorem Setting.Accounts.size_frames {setting : Setting} {records : List Json}
    (h : setting.Accounts records) : (setting.run records).1.frames.size
      = setting.delivered records + (withoutPieces (setting.shots records)).length := by
  have hlength := congrArg List.length h.frames
  rw [List.length_map, Array.length_toList, projections, List.length_mapIdx, List.length_map,
    length_eq_countP_add_withoutPieces, h.pieces] at hlength
  exact hlength

theorem Setting.Clear.accounts {setting : Setting} (h : setting.Clear) (records : List Json) :
    setting.Accounts records where
  frames := by
    obtain ⟨events, ⟨-, frames, hframes, hproject⟩, hrecorded⟩ :=
      h.run_extends records (Stage.initial setting.rhythm)
    rw [Setting.run, hframes, Setting.shots, ← hrecorded]
    exact hproject
  pieces := by
    have hdelivered := h.delivered_run records (Stage.initial setting.rhythm)
    rw [Setting.delivered, Setting.run, hdelivered]
    exact (Nat.zero_add _).symm

theorem ArrivesAt.exists_mem {setting : Setting} {stage now : Stage} {records : List Json}
    {text : Text} {timeout : Number} (h : ArrivesAt setting stage records now text timeout) :
    ∃ record ∈ records, Step.ofRecord record = .ok (.waitFor text timeout) := by
  induction h with
  | here parsed absent => exact ⟨_, List.mem_cons_self .., parsed⟩
  | later performed arrives ih =>
      obtain ⟨record, hrecord, hparsed⟩ := ih
      exact ⟨record, List.mem_cons_of_mem _ hrecord, hparsed⟩

theorem Setting.run_ne_endless {setting : Setting} {records : List Json}
    (hcommands : setting.commands.End)
    (hbound : ∀ record ∈ records, ∀ text timeout,
      Step.ofRecord record = .ok (.waitFor text timeout) → ¬timeout.Boundless) :
    (setting.run records).2 ≠ .endless := by
  refine Stage.run_ne_endless (Stage.performRecords_ne_endless hcommands ?_)
  intro now text timeout harrives
  obtain ⟨record, hrecord, hparsed⟩ := harrives.exists_mem
  exact hbound record hrecord text timeout hparsed

/-- It remains to show that the runs end alike and leave the same shots. -/
theorem SameButPieces.of_accounts {setting other : Setting} {records : List Json}
    (accounts : setting.Accounts records) (accounts' : other.Accounts records)
    (outcome : (setting.run records).2 = (other.run records).2)
    (alike : (setting.run records).1.Alike (other.run records).1)
    (rest : withoutPieces (setting.shots records) = withoutPieces (other.shots records)) :
    SameButPieces setting other records where
  accounts := accounts
  accounts' := accounts'
  outcome := outcome
  alike := alike
  rest := rest
  count := by
    rw [accounts.size_frames, accounts'.size_frames, rest]
    omega
  ends hcommands hbound := by
    have hends := Setting.run_ne_endless hcommands hbound
    exact ⟨hends, outcome ▸ hends⟩

namespace Setting.Clear

open Stage

variable {setting : Setting} (h : setting.Clear)

include h

theorem offering (commands : Commands) : (setting.offering commands).Clear :=
  ⟨h.projects, h.preview, h.pacing⟩

theorem sameButPieces {other : Commands} (hcut : setting.commands.Recut other)
    (records : List Json) : SameButPieces setting (setting.offering other) records := by
  let start := Stage.initial setting.rhythm
  have hsheet := recutSheet_cueSheet hcut start.session records
  obtain ⟨⟨hhalt, halike⟩, hshots⟩ := h.together_performAll hsheet (.refl start)
  have hends : (setting.run records).2 = ((setting.offering other).run records).2 ∧
      (setting.run records).1.Alike ((setting.offering other).run records).1 := by
    have hrun : setting.run records = _ := run_offering setting setting.commands records start
    have hrun' : (setting.offering other).run records = _ := run_offering setting other records start
    rw [hrun, hrun']
    rcases hended : start.performAll setting (cueSheet setting.commands start.session records) with
      ⟨ended, halt⟩
    rcases hended' : start.performAll setting (cueSheet other start.session records) with
      ⟨ended', halt'⟩
    rw [hended, hended'] at hhalt halike
    obtain rfl : halt = halt' := hhalt
    cases halt with
    | none => exact ⟨rfl, halike⟩
    | some halt =>
        refine ⟨(h.conclude ended halt).trans (h.conclude ended' halt).symm, ?_⟩
        refine (alike_conclude setting ended halt).trans
          (.trans ?_ (alike_conclude setting ended' halt).symm)
        exact ⟨congrArg (·.concluded (some halt)) halike.session, halike.rhythm, halike.sleeps⟩
  obtain ⟨houtcome, hlast⟩ := hends
  refine .of_accounts (h.accounts records) ((h.offering other).accounts records) houtcome hlast ?_
  have hothers : (setting.offering other).shots records
      = start.reel setting (cueSheet other start.session records)
        ++ (((setting.offering other).run records).2.errorFilm
          ((setting.offering other).run records).1.session).map fun buffer => ⟨buffer, false⟩ := by
    rw [← reel_offering setting other]
    rfl
  rw [hothers, Setting.shots, Stage.shots, withoutPieces_append, withoutPieces_append, ← hshots,
    ← houtcome, ← hlast.session]
  rfl

end Setting.Clear

namespace Config.Dark

open Stage

variable {setting : Setting} (h : setting.config.Dark)

include h

/-- A run in the dark records nothing and starts nothing. -/
theorem run_eq_nothing (records : List Json) : (setting.run records).1.frames = #[] ∧
    (setting.run records).1.session.commands = [] ∧ setting.shots records = [] := by
  have hstart : (Stage.initial setting.rhythm).frames = #[] := rfl
  obtain ⟨-, hframes, hcommands⟩ := h.performRecords hstart setting.commands records
  have hreel := (h.performAll hstart
    (cueSheet setting.commands (Stage.initial setting.rhythm).session records)).2
  rw [Setting.shots, Stage.shots, hreel, List.nil_append, Setting.run, run_eq_conclude]
  rcases hended : (Stage.initial setting.rhythm).performRecords setting records with
    ⟨ended, _ | halt⟩ <;> rw [hended] at hframes hcommands
  · exact ⟨hframes, hcommands, rfl⟩
  · obtain ⟨hlast, herror⟩ := h.conclude hframes halt
    refine ⟨hlast, ?_, ?_⟩
    · exact (commands_conclude setting ended halt).trans hcommands
    · exact congrArg (List.map _) herror

theorem accounts (records : List Json) : setting.Accounts records := by
  obtain ⟨hframes, hcommands, hshots⟩ := h.run_eq_nothing records
  refine ⟨?_, ?_⟩
  · rw [hframes, hshots]
    rfl
  · rw [Setting.delivered, hcommands, hshots]
    rfl

theorem sameButPieces (other : Commands) (records : List Json) :
    SameButPieces setting (setting.offering other) records := by
  have hrun : (setting.offering other).run records = setting.run records := by
    have hstart : (Stage.initial setting.rhythm).frames = #[] := rfl
    have hsame := (h.performRecords hstart other records).1
    have hinitial : Stage.initial (setting.offering other).rhythm
        = Stage.initial setting.rhythm := rfl
    rw [Setting.run, Setting.run, run_eq_conclude, run_eq_conclude, hinitial, hsame]
    rcases (Stage.initial setting.rhythm).performRecords setting records with ⟨ended, _ | halt⟩
    · rfl
    · exact conclude_offering setting other ended halt
  have hdark : (setting.offering other).config.Dark := h
  refine .of_accounts (h.accounts records) (hdark.accounts records) (by rw [hrun])
    (by rw [hrun]; exact .refl _) ?_
  rw [(h.run_eq_nothing records).2.2, (hdark.run_eq_nothing records).2.2]

end Config.Dark

/-- If the commands of a script write the same in other pieces and end alike, then its runs with a
preview that works and pauses that nobody interrupts differ only in the frames of the pieces. -/
theorem run_recut {setting : Setting} {other : Commands} (hcut : setting.commands.Recut other)
    (hpreview : ∀ frame, setting.preview frame = none) (hpacing : setting.pacing.Uninterrupted)
    (records : List Json) : SameButPieces setting (setting.offering other) records := by
  rcases setting.config.projects_or_dark with hprojects | hdark
  · have hclear : setting.Clear := ⟨hprojects, hpreview, hpacing⟩
    exact hclear.sameButPieces hcut records
  · exact hdark.sameButPieces other records

/-- A setting that takes its time, with commands that answer in one piece. -/
def patient : Setting where
  config := usualConfig
  commands := answering.commands
  pacing := .realTime fun _ => false
  preview := fun _ => none
  entropy := .ofSeed 0

/-- The same answers, letter by letter. -/
def letterwise : Commands := fun _ _ => .started ["o", "k"] .quiet

/-- A line that is run answers in one piece or in two, and the rest of the recording is the same. -/
theorem run_recut_letterwise :
    patient.commands.Recut letterwise ∧ (∀ frame, patient.preview frame = none) ∧
      patient.pacing.Uninterrupted ∧
      SameButPieces patient (patient.offering letterwise) correctedLine ∧
      patient.delivered correctedLine = 1 ∧
      (patient.offering letterwise).delivered correctedLine = 2 := by
  have hcut : patient.commands.Recut letterwise := by
    intro before command
    have hanswer : (Launch.started ["ok"] .quiet).Recut (.started ["o", "k"] .quiet) :=
      .started (by decide) .quiet
    exact hanswer
  have hpreview (frame : Frame) : patient.preview frame = none := rfl
  have hpacing : patient.pacing.Uninterrupted := fun _ => rfl
  have hsame := run_recut hcut hpreview hpacing correctedLine
  have hsteady : patient.Steady :=
    Setting.steady_of_moderate rfl usualConfig_moderate hpreview hpacing
  have hcommands : (patient.run correctedLine).1.session.commands = ["ls"] := by
    rw [Setting.run, (hsteady.run correctedLine (Stage.initial patient.rhythm)).2]
    rfl
  refine ⟨hcut, hpreview, hpacing, hsame, ?_, ?_⟩
  · rw [Setting.delivered, hcommands]
    rfl
  · rw [Setting.delivered, ← hsame.alike.session, hcommands]
    rfl

end Screencast
