import Screencast.Proofs.Replay.Agreement
import Screencast.Proofs.Replay.Alike
import Screencast.Proofs.Replay.Reel

/-!
# How much output is delivered

Each piece of output that a command delivers is shown at once, so that in a clear setting a run shows as
many pieces as the commands deliver that it starts: `Setting.Clear.delivered_run`.
-/

namespace Screencast

/-- How many pieces of output a command delivers. -/
def Launch.pieces : Launch → Nat
  | .refused _ => 0
  | .started texts _ => texts.length

/-- How many pieces of output commands deliver that are started one after the other. -/
def Commands.delivered (commands : Commands) (before : List Text) : List Text → Nat
  | [] => 0
  | command :: rest =>
    (commands before command).pieces + delivered commands (before ++ [command]) rest

theorem Commands.delivered_concat (commands : Commands) (before started : List Text)
    (command : Text) :
    commands.delivered before (started ++ [command])
      = commands.delivered before started + (commands (before ++ started) command).pieces := by
  induction started generalizing before with
  | nil => simp [delivered]
  | cons first rest ih =>
      simp only [List.cons_append, delivered, ih, List.append_assoc, List.nil_append, Nat.add_assoc]

/-! ## Cues that show no output

Only the output of a command is shown in pieces. -/

namespace Session

variable (session : Session)

theorem isPiece_typing (text : Text) : ∀ cue ∈ session.typing text, cue.isPiece = false := by
  induction text generalizing session with
  | nil => exact List.forall_mem_nil _
  | cons c rest ih => exact List.forall_mem_cons.mpr ⟨rfl, ih _⟩

theorem isPiece_deleting (count : Nat) : ∀ cue ∈ session.deleting count, cue.isPiece = false := by
  induction count generalizing session with
  | zero => exact List.forall_mem_nil _
  | succ count ih =>
      rw [deleting]
      split
      · exact List.forall_mem_nil _
      · exact List.forall_mem_cons.mpr ⟨rfl, ih _⟩

theorem isPiece_ending (command : Text) (ending : Ending) :
    ∀ cue ∈ session.ending command ending, cue.isPiece = false := by
  cases ending with
  | halted halt => exact List.forall_mem_singleton.mpr rfl
  | quiet => exact List.forall_mem_singleton.mpr rfl
  | exited status =>
      simp only [Session.ending]
      split
      · exact List.forall_mem_singleton.mpr rfl
      · refine List.forall_mem_append.mpr ⟨?_, List.forall_mem_singleton.mpr rfl⟩
        split
        · exact List.forall_mem_nil _
        · exact List.forall_mem_singleton.mpr rfl

theorem isPiece_waiting (text : Text) (timeout : Number) :
    ∀ cue ∈ session.waiting text timeout, cue.isPiece = false := by
  unfold waiting
  split
  · exact List.forall_mem_nil _
  · split
    · simp [Cue.isPiece]
    · rw [List.forall_mem_append, List.forall_mem_singleton]
      refine ⟨fun cue hcue => ?_, rfl⟩
      rw [List.eq_of_mem_replicate hcue]
      rfl

theorem isPiece_cues (commands : Commands) {step : Step} (hstep : step ≠ .enter) :
    ∀ cue ∈ step.cues commands session, cue.isPiece = false := by
  cases step with
  | typeText text => exact session.isPiece_typing text
  | delete count => exact session.isPiece_deleting count
  | enter => exact absurd rfl hstep
  | paste | copy span => exact List.forall_mem_singleton.mpr rfl
  | clear =>
      exact List.forall_mem_append.mpr
        ⟨session.isPiece_typing clearWord, List.forall_mem_singleton.mpr rfl⟩
  | waitFor text timeout => exact session.isPiece_waiting text timeout

end Session

/-! ## Pieces and commands -/

namespace Stage

/-- On the reel of cues there are as many pieces as the commands deliver that the cues start. -/
def Tallies (setting : Setting) (stage : Stage) (cues : List Cue) : Prop :=
  setting.commands.delivered [] (stage.performAll setting cues).1.session.commands
    = setting.commands.delivered [] stage.session.commands
      + (stage.reel setting cues).countP Shot.piece

variable {setting : Setting} {stage : Stage} {cues rest : List Cue}

theorem Tallies.append (h : Tallies setting stage cues)
    (hrest : ∀ next, stage.performAll setting cues = (next, none) → Tallies setting next rest) :
    Tallies setting stage (cues ++ rest) := by
  unfold Tallies at h ⊢
  rw [performAll_append]
  rcases hcues : stage.performAll setting cues with ⟨next, _ | halt⟩ <;> rw [hcues] at h
  · rw [andThen_none, hrest next hcues, h, reel_append_of_none hcues, List.countP_append,
      Nat.add_assoc]
  · rw [andThen_some, reel_append_of_some hcues, h]

theorem countP_reel_eq_zero (h : ∀ cue ∈ cues, cue.isPiece = false) (stage : Stage) :
    (stage.reel setting cues).countP Shot.piece = 0 := by
  rw [List.countP_eq_zero]
  intro shot hshot
  obtain ⟨cue, hcue, hpiece⟩ := exists_of_mem_reel hshot
  simp [hpiece, h cue hcue]

/-- Cues that start nothing and show no output. -/
theorem tallies_of_keeps (hkeeps : ∀ cue ∈ cues, cue.Keeps stage.session.commands)
    (hpieces : ∀ cue ∈ cues, cue.isPiece = false) : Tallies setting stage cues := by
  rw [Tallies, commands_performAll setting hkeeps, countP_reel_eq_zero hpieces, Nat.add_zero]

/-- The stage on which a command was noted and started. -/
def starting (note : LogEntry) (command : Text) (stage : Stage) : Stage :=
  { stage.note (.logged note) with session := stage.session.start command }

/-- A command that is started delivers what is then shown. -/
theorem tallies_of_start {note : LogEntry} {command : Text} {output : List Cue}
    (hcommands : ((stage.starting note command).performAll setting output).1.session.commands
      = stage.session.commands ++ [command])
    (hcount : ((stage.starting note command).reel setting output).countP Shot.piece
      = (setting.commands stage.session.commands command).pieces) :
    Tallies setting stage (.log note :: .turn (stage.session.start command) :: output) := by
  have hperformed : stage.performAll setting
      (.log note :: .turn (stage.session.start command) :: output)
        = (stage.starting note command).performAll setting output := by
    simp only [performAll_cons, perform, andThen_none]
    rfl
  have hreel : stage.reel setting (.log note :: .turn (stage.session.start command) :: output)
      = (stage.starting note command).reel setting output := rfl
  rw [Tallies, hperformed, hreel, hcommands, hcount, Commands.delivered_concat, List.nil_append]

/-- Concluding a halt starts nothing. -/
theorem commands_conclude (setting : Setting) (stage : Stage) (halt : Halt) :
    (stage.conclude setting halt).1.session.commands = stage.session.commands := by
  rw [(holds_conclude setting stage halt).session]
  cases halt <;> rfl

end Stage

namespace Setting.Clear

open Stage

variable {setting : Setting} (h : setting.Clear)

include h

/-- Pieces of output are all shown, each for one frame, and nothing else is done. -/
theorem receiving (session : Session) (texts : List Text) (stage : Stage) :
    ∃ next, stage.performAll setting (session.receiving texts) = (next, none) ∧
      next.Alike { stage with session := stage.session.after (session.receiving texts) } ∧
      (stage.reel setting (session.receiving texts)).countP Shot.piece = texts.length ∧
      ∀ shot ∈ stage.reel setting (session.receiving texts), shot.piece = true := by
  induction texts generalizing session stage with
  | nil => exact ⟨stage, rfl, .refl stage, rfl, List.forall_mem_nil _⟩
  | cons text rest ih =>
      obtain ⟨shown, hshown⟩ : ∃ shown,
          stage.perform setting (.flash (session.emit text)) = (shown, none) :=
        ⟨_, Prod.ext rfl (h.flash (stage.bring (.flash (session.emit text))))⟩
      have hflash : (stage.bring (.flash (session.emit text))).flash setting = (shown, none) :=
        hshown
      -- a frame more is recorded, and nothing else changes
      have halike := alike_flash setting (stage.bring (.flash (session.emit text)))
      rw [hflash] at halike
      obtain ⟨next, hnext, hlast, hcount, hpieces⟩ := ih (session.emit text) shown
      refine ⟨next, ?_, ⟨?_, hlast.rhythm.trans halike.rhythm, hlast.sleeps.trans halike.sleeps⟩,
        ?_, ?_⟩
      · rw [Session.receiving, performAll_cons, hshown, andThen_none, hnext]
      · rw [hlast.session, halike.session]
        rfl
      · rw [Session.receiving, reel_cons_of_none hshown, List.countP_append, hcount,
          List.length_cons, Nat.add_comm]
        rfl
      · rw [Session.receiving, reel_cons_of_none hshown, List.forall_mem_append]
        exact ⟨List.forall_mem_singleton.mpr rfl, hpieces⟩

theorem tallies_running (command : Text) (stage : Stage) :
    Tallies setting stage (stage.session.running setting.commands command) := by
  obtain ⟨note, output, hrunning, hkeeps⟩ := stage.session.running_eq setting.commands command
  have houtput : _ = output := (List.cons.inj (List.cons.inj hrunning).2).2
  rw [hrunning]
  apply tallies_of_start
  · exact commands_performAll setting hkeeps
  · rw [← houtput]
    cases setting.commands stage.session.commands command with
    | refused halt => rfl
    | started texts ending =>
        obtain ⟨next, hnext, -, hcount, -⟩ :=
          h.receiving (stage.session.start command) texts (stage.starting note command)
        have hending := ((stage.session.start command).received texts).isPiece_ending command ending
        rw [reel_append_of_none hnext, List.countP_append, hcount,
          countP_reel_eq_zero hending, Nat.add_zero, Launch.pieces]

theorem tallies_entering (stage : Stage) :
    Tallies setting stage (stage.session.entering setting.commands) := by
  have hcues : stage.session.entering setting.commands
      = [.hold Session.actionPause stage.session.submit.2] ++
        if stage.session.submit.1.isEmpty then []
        else stage.session.submit.2.running setting.commands stage.session.submit.1 := rfl
  rw [hcues]
  have hpause : Tallies setting stage [.hold Session.actionPause stage.session.submit.2] :=
    tallies_of_keeps (List.forall_mem_singleton.mpr (.of_some rfl rfl))
      (List.forall_mem_singleton.mpr rfl)
  refine hpause.append fun next hnext => ?_
  -- the command is started after the pause, by the session that the sheet knew before it
  have hsession : next.session = stage.session.submit.2 := session_performAll setting hnext
  split
  · exact tallies_of_keeps (List.forall_mem_nil _) (List.forall_mem_nil _)
  · have hrunning := h.tallies_running stage.session.submit.1 next
    rwa [hsession] at hrunning

theorem tallies_cueSheet (records : List Json) (stage : Stage) :
    Tallies setting stage (cueSheet setting.commands stage.session records) := by
  induction records generalizing stage with
  | nil => exact tallies_of_keeps (List.forall_mem_nil _) (List.forall_mem_nil _)
  | cons record rest ih =>
      have hrecord : Tallies setting stage
          (recordCues setting.commands stage.session record) := by
        unfold recordCues
        cases Step.ofRecord record with
        | error error =>
            exact tallies_of_keeps (List.forall_mem_singleton.mpr (.of_none rfl))
              (List.forall_mem_singleton.mpr rfl)
        | ok step =>
            by_cases hstep : step = .enter
            · rw [hstep]
              exact h.tallies_entering stage
            · exact tallies_of_keeps (stage.session.keeps_cues setting.commands hstep)
                (stage.session.isPiece_cues setting.commands hstep)
      refine hrecord.append fun next hnext => ?_
      rw [← session_performAll setting hnext]
      exact ih next

/-- In a run as many pieces are shown as the commands deliver that it starts. -/
theorem delivered_run (records : List Json) (stage : Stage) :
    setting.commands.delivered [] (stage.run setting records).1.session.commands
      = setting.commands.delivered [] stage.session.commands
        + (stage.shots setting records).countP Shot.piece := by
  have hsheet := h.tallies_cueSheet records stage
  rw [Tallies] at hsheet
  have herror (buffers : List Text) :
      (buffers.map fun buffer => (⟨buffer, false⟩ : Shot)).countP Shot.piece = 0 := by
    simp [List.countP_eq_zero]
  rw [shots, List.countP_append, herror, Nat.add_zero, ← hsheet, run_eq_conclude,
    performRecords_eq_performAll]
  rcases stage.performAll setting (cueSheet setting.commands stage.session records) with
    ⟨ended, _ | halt⟩
  · rfl
  · rw [commands_conclude]

end Setting.Clear

end Screencast
