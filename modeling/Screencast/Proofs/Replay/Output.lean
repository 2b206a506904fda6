import Screencast.Proofs.Replay.Delivery
import Screencast.Proofs.Replay.Effect
import Screencast.Proofs.Replay.Holding
import Screencast.Proofs.Replay.Recut
import Screencast.Proofs.Replay.Soundness

/-!
# What running a command does

A command that is started writes its output piece by piece.  Each piece is shown for exactly one frame, and
`Stage.Wrote` is what holds after any number of them.  What comes then depends on how the output ends:
`Stage.RunsCommand` lists every outcome, with the text on the terminal and the frames that it leaves, and
`Stage.performAll_running` says that there is no other.
-/

namespace Screencast

/-- An output after which the command exits, but not by a signal. -/
def Ending.Completes : Ending → Prop
  | .quiet => True
  | .exited status => 0 ≤ status
  | .halted _ => False

/-- The buffers that pieces of output lead to, one after each piece. -/
def grown (buffer : Text) (texts : List Text) : List Text :=
  (List.range texts.length).map fun i => buffer ++ (texts.take (i + 1)).flatten

theorem length_grown (buffer : Text) (texts : List Text) :
    (grown buffer texts).length = texts.length := by
  rw [grown, List.length_map, List.length_range]

theorem grown_concat (buffer : Text) (texts : List Text) (text : Text) :
    grown buffer (texts ++ [text]) = grown buffer texts ++ [buffer ++ (texts ++ [text]).flatten] := by
  rw [grown, List.length_append, List.length_singleton, List.range_succ, List.map_append, grown]
  congr 1
  · refine List.map_congr_left fun i hi => ?_
    rw [List.mem_range] at hi
    rw [List.take_append_of_le_length hi]
  · rw [List.map_singleton, List.take_of_length_le (by simp)]

/-- Pieces of output can all be shown, each at the place of its frame. -/
def Setting.Shows (setting : Setting) (buffer : Text) (first : Nat) (texts : List Text) : Prop :=
  ∀ i < texts.length,
    setting.unseen? (buffer ++ (texts.take (i + 1)).flatten) (first + i) = none

theorem Setting.Shows.concat {setting : Setting} {buffer : Text} {first : Nat} {texts : List Text}
    (h : setting.Shows buffer first texts) {text : Text}
    (htext : setting.unseen? (buffer ++ (texts ++ [text]).flatten) (first + texts.length) = none) :
    setting.Shows buffer first (texts ++ [text]) := by
  intro i hi
  rw [List.length_append, List.length_singleton] at hi
  rcases Nat.lt_succ_iff_lt_or_eq.mp hi with hi | rfl
  · rw [List.take_append_of_le_length hi]
    exact h i hi
  · rwa [List.take_of_length_le (by simp)]

namespace Stage

/-- A stage on which a command was started and pieces of its output were written: each of them was shown
and is one frame, and there was no pause. -/
structure Wrote (setting : Setting) (command : Text) (before : Stage) (texts : List Text)
    (after : Stage) : Prop where
  session : after.session = (before.session.start command).emit texts.flatten
  shows : setting.Shows before.session.buffer before.frames.size texts
  continues : Continues setting.config before (grown before.session.buffer texts) [] after

variable {setting : Setting} {command : Text} {before after : Stage} {texts : List Text}

namespace Wrote

theorem size_frames (h : Wrote setting command before texts after) :
    after.frames.size = before.frames.size + texts.length := by
  rw [h.continues.frames.size_frames, length_grown]

/-- The next piece on the terminal. -/
theorem buffer_emit (h : Wrote setting command before texts after) (text : Text) :
    (after.session.emit text).buffer = before.session.buffer ++ (texts ++ [text]).flatten := by
  rw [h.session, Session.emit_emit, List.flatten_append, List.flatten_singleton]
  rfl

/-- A command that was started and has written nothing yet. -/
theorem starting (setting : Setting) (note : LogEntry) (command : Text) (stage : Stage) :
    Wrote setting command stage [] (stage.starting note command) where
  session := (Session.emit_nil _).symm
  shows := nofun
  continues := (Continues.note rfl stage).withSession _

/-- An event that is no pause is not part of the output. -/
theorem noted (h : Wrote setting command before texts after) {event : Event}
    (hevent : event.seconds? = none) : Wrote setting command before texts (after.note event) where
  session := h.session
  shows := h.shows
  continues := by
    have hnoted := h.continues.trans_nil (.note hevent after)
    rwa [List.append_nil] at hnoted

/-- One more piece, if it can be shown. -/
theorem concat (h : Wrote setting command before texts after) {text : Text}
    (hseen : setting.unseen? (before.session.buffer ++ (texts ++ [text]).flatten)
      (before.frames.size + texts.length) = none) :
    ∃ next, { after with session := after.session.emit text }.flash setting = (next, none) ∧
      Wrote setting command before (texts ++ [text]) next := by
  have hplace : setting.unseen? (after.session.emit text).buffer after.frames.size = none := by
    rwa [h.buffer_emit, h.size_frames]
  obtain ⟨next, hnext, hcontinues, hsession⟩ :=
    exists_flash { after with session := after.session.emit text } hplace
  refine ⟨next, hnext, ?_, h.shows.concat hseen, ?_⟩
  · rw [hsession, h.session, Session.emit_emit, List.flatten_append, List.flatten_singleton]
  · rw [grown_concat, ← h.buffer_emit]
    exact (h.continues.withSession _).trans_nil hcontinues

/-- A piece that cannot be shown is on the terminal, but is no frame. -/
theorem unseen (h : Wrote setting command before texts after) {text : Text} {failure : Failure}
    (hunseen : setting.unseen? (before.session.buffer ++ (texts ++ [text]).flatten)
      (before.frames.size + texts.length) = some failure) :
    { after with session := after.session.emit text }.flash setting
      = ({ after with session := after.session.emit text }, some (.failed failure)) := by
  refine flash_of_unseen ?_
  rwa [h.buffer_emit, h.size_frames]

end Wrote

/-- What running a command comes to. -/
inductive RunsCommand (setting : Setting) (command : Text) (before : Stage) :
    Stage × Option Halt → Prop
  /-- The command cannot be started. -/
  | refused {halt : Halt} {after : Stage}
      (launch : setting.commands before.session.commands command = .refused halt)
      (wrote : Wrote setting command before [] after) :
      RunsCommand setting command before (after, some halt)
  /-- A piece of output cannot be shown; those before it were, and those after it are not written. -/
  | unseen {shown rest : List Text} {text : Text} {ending : Ending} {failure : Failure} {after : Stage}
      (launch : setting.commands before.session.commands command
        = .started (shown ++ text :: rest) ending)
      (wrote : Wrote setting command before shown after)
      (unseen : setting.unseen? (before.session.buffer ++ (shown ++ [text]).flatten)
        (before.frames.size + shown.length) = some failure) :
      RunsCommand setting command before
        ({ after with session := after.session.emit text }, some (.failed failure))
  /-- The output breaks off, or the command is ended by a signal. -/
  | broken {texts : List Text} {ending : Ending} {halt : Halt} {after : Stage}
      (launch : setting.commands before.session.commands command = .started texts ending)
      (wrote : Wrote setting command before texts after) (breaks : ending.Breaks command halt) :
      RunsCommand setting command before (after, some halt)
  /-- The command exits; its output ends the line and is held for the pause after an action. -/
  | completed {texts : List Text} {ending : Ending} {after : Stage} {result : Stage × Option Halt}
      (launch : setting.commands before.session.commands command = .started texts ending)
      (wrote : Wrote setting command before texts after) (completes : ending.Completes)
      (session : result.1.session = after.session.emit "\n")
      (held : Held setting (.int Session.actionPause)
        { after with session := after.session.emit "\n" } result) :
      RunsCommand setting command before result

/-- Pieces of output are shown one after the other, up to the first one that cannot be shown. -/
theorem performAll_receiving (h : Wrote setting command before texts after) (rest : List Text) :
    (∃ last, after.performAll setting (after.session.receiving rest) = (last, none) ∧
        Wrote setting command before (texts ++ rest) last) ∨
      ∃ shown text later last failure, rest = shown ++ text :: later ∧
        Wrote setting command before (texts ++ shown) last ∧
        setting.unseen? (before.session.buffer ++ (texts ++ shown ++ [text]).flatten)
          (before.frames.size + (texts ++ shown).length) = some failure ∧
        after.performAll setting (after.session.receiving rest)
          = ({ last with session := last.session.emit text }, some (.failed failure)) := by
  induction rest generalizing texts after with
  | nil => exact .inl ⟨after, rfl, by rwa [List.append_nil]⟩
  | cons text rest ih =>
      have hperform : after.perform setting (.flash (after.session.emit text))
          = { after with session := after.session.emit text }.flash setting := rfl
      rw [Session.receiving, performAll_cons, hperform]
      cases hunseen : setting.unseen? (before.session.buffer ++ (texts ++ [text]).flatten)
          (before.frames.size + texts.length) with
      | some failure =>
          refine .inr ⟨[], text, rest, after, failure, rfl, ?_, ?_, ?_⟩
          · rwa [List.append_nil]
          · rwa [List.append_nil]
          · rw [h.unseen hunseen, andThen_some]
      | none =>
          obtain ⟨next, hnext, hwrote⟩ := h.concat hunseen
          have hsession : next.session = after.session.emit text := by
            have hflash := (holds_flash setting { after with session := after.session.emit text }).session
            rwa [hnext] at hflash
          rw [hnext, andThen_none, ← hsession]
          -- the others go on behind this piece
          rcases ih hwrote with ⟨last, hlast, hall⟩ | ⟨shown, other, later, last, failure, rfl,
            hshown, hfails, hlast⟩
          · exact .inl ⟨last, hlast, by rwa [List.append_assoc] at hall⟩
          · rw [List.append_assoc texts] at hshown hfails
            exact .inr ⟨text :: shown, other, later, last, failure, rfl, hshown, hfails, hlast⟩

/-- The end of a line after the output, held for the pause after an action. -/
theorem performAll_lineEnd (h : Wrote setting command before texts after) {ending : Ending}
    (hlaunch : setting.commands before.session.commands command = .started texts ending)
    (hcompletes : ending.Completes) :
    RunsCommand setting command before
      (after.performAll setting [.hold Session.actionPause (after.session.emit "\n")]) := by
  have hseconds : ∃ seconds, (Number.int Session.actionPause).div (.int 1000) = .ok seconds :=
    ⟨_, rfl⟩
  rw [performAll_singleton]
  exact .completed hlaunch h hcompletes (session_perform setting _ after) (held_advance hseconds _)

/-- What the end of an output comes to. -/
theorem performAll_ending (h : Wrote setting command before texts after) {ending : Ending}
    (hlaunch : setting.commands before.session.commands command = .started texts ending) :
    RunsCommand setting command before
      (after.performAll setting (after.session.ending command ending)) := by
  cases ending with
  | halted halt => exact .broken hlaunch h (.halted halt)
  | quiet => exact performAll_lineEnd h hlaunch trivial
  | exited status =>
      rw [Session.ending]
      by_cases hsignal : status < 0
      · rw [if_pos hsignal]
        exact .broken hlaunch h (.terminated hsignal)
      · have hcompletes : (Ending.exited status).Completes := Int.not_lt.mp hsignal
        rw [if_neg hsignal]
        by_cases hzero : status = 0
        · simp only [if_pos hzero, List.nil_append]
          exact performAll_lineEnd h hlaunch hcompletes
        · -- the status is noted first
          simp only [if_neg hzero]
          exact performAll_lineEnd (h.noted rfl) hlaunch hcompletes

/-- What is performed of a command that is noted and started. -/
theorem performAll_start (note : LogEntry) (command : Text) (stage : Stage) (output : List Cue) :
    stage.performAll setting (.log note :: .turn (stage.session.start command) :: output)
      = (stage.starting note command).performAll setting output := by
  rw [performAll_cons, perform, andThen_none, performAll_cons, perform, andThen_none]
  rfl

/-- A command that is run is noted, started, and then comes to one of these outcomes. -/
theorem performAll_running (setting : Setting) (stage : Stage) (command : Text) :
    RunsCommand setting command stage
      (stage.performAll setting (stage.session.running setting.commands command)) := by
  simp only [Session.running, performAll_start]
  generalize (⟨"termreplay.replay", .debug, _⟩ : LogEntry) = note
  have hstarted : Wrote setting command stage [] (stage.starting note command) := .starting ..
  cases hlaunch : setting.commands stage.session.commands command with
  | refused halt => exact .refused hlaunch hstarted
  | started texts ending =>
      have hreceiving := performAll_receiving hstarted texts
      have hsession : (stage.starting note command).session = stage.session.start command := rfl
      rw [List.nil_append, hsession] at hreceiving
      simp only [performAll_append]
      rcases hreceiving with ⟨last, hlast, hwrote⟩ | ⟨shown, text, later, last, failure, rfl, hwrote,
        hunseen, hlast⟩
      · have hreceived : (stage.session.start command).received texts = last.session := by
          rw [hwrote.session, Session.received_eq_emit]
        rw [hlast, andThen_none, hreceived]
        exact performAll_ending hwrote hlaunch
      · rw [hlast, andThen_some]
        exact .unseen hlaunch hwrote hunseen

/-! ## The effect -/

/-- A command that is run is noted, and all that it does to the session is to write. -/
theorem RunsCommand.exists_emit {result : Stage × Option Halt}
    (h : RunsCommand setting command before result) :
    ∃ written, result.1.session = (before.session.start command).emit written := by
  cases h with
  | refused _ wrote => exact ⟨_, wrote.session⟩
  | broken _ wrote _ => exact ⟨_, wrote.session⟩
  | @unseen shown _ text _ _ after _ wrote _ =>
      have hsession : after.session.emit text = _ :=
        congrArg (fun session => session.emit text) wrote.session
      exact ⟨shown.flatten ++ text, hsession.trans (Session.emit_emit _ _ _)⟩
  | @completed texts _ after _ _ wrote _ session _ =>
      have hsession : after.session.emit "\n" = _ :=
        congrArg (fun session => session.emit "\n") wrote.session
      exact ⟨texts.flatten ++ "\n", (session.trans hsession).trans (Session.emit_emit _ _ _)⟩

/-- A command that was run to its end, with its output and the end of its line on the terminal, a frame for
each piece and then those of the pause. -/
structure RanToEnd (setting : Setting) (before : Stage) (texts : List Text)
    (result : Stage × Option Halt) : Prop where
  halt : result.2 = none
  buffer : result.1.session.buffer = before.session.buffer ++ texts.flatten ++ "\n"
  continues : Continues setting.config before
    (grown before.session.buffer texts
      ++ List.replicate (setting.config.ticks (.int Session.actionPause))
        (before.session.buffer ++ texts.flatten ++ "\n"))
    (setting.pacing.rests (.int Session.actionPause)) result.1

/-- What a command that is run does, and what it leaves as it is. -/
structure CommandEffect (setting : Setting) (command : Text) (before : Stage)
    (result : Stage × Option Halt) : Prop where
  outcome : RunsCommand setting command before result
  /-- If nothing disturbs the replay, a command that exits is run to its end. -/
  undisturbed : setting.Clear → setting.config.Lasts (.int Session.actionPause) →
    ∀ texts ending, setting.commands before.session.commands command = .started texts ending →
      ending.Completes → RanToEnd setting before texts result
  pending : result.1.session.pending = before.session.pending
  clipboard : result.1.session.clipboard = before.session.clipboard

/-- Where nothing is disturbed, only the last outcome is left for a command that exits. -/
theorem RunsCommand.ranToEnd {result : Stage × Option Halt}
    (h : RunsCommand setting command before result) (hclear : setting.Clear)
    (hlasts : setting.config.Lasts (.int Session.actionPause)) {ending : Ending}
    (hlaunch : setting.commands before.session.commands command = .started texts ending)
    (hcompletes : ending.Completes) : RanToEnd setting before texts result := by
  cases h with
  | refused launch wrote => cases hlaunch.symm.trans launch
  | unseen launch wrote unseen => cases (hclear.unseen?_eq_none _ _).symm.trans unseen
  | broken launch wrote breaks =>
      cases hlaunch.symm.trans launch
      cases breaks with
      | halted halt => exact absurd hcompletes id
      | terminated signal => exact absurd signal (Int.not_lt.mpr hcompletes)
  | @completed _ _ after _ launch wrote completes session held =>
      cases hlaunch.symm.trans launch
      obtain ⟨last, rfl⟩ := held.exists_eq_none hclear hlasts
      have hbuffer : (after.session.emit "\n").buffer
          = before.session.buffer ++ texts.flatten ++ "\n" := by
        rw [wrote.session]
        rfl
      have hheld := held.continues
      rw [hbuffer] at hheld
      refine ⟨rfl, (congrArg Session.buffer session).trans hbuffer, ?_⟩
      exact (wrote.continues.withSession _).trans_nil hheld

/-- The effect of running a command, whatever it does and however it ends. -/
theorem running_effect (setting : Setting) (stage : Stage) (command : Text) :
    CommandEffect setting command stage
      (stage.performAll setting (stage.session.running setting.commands command)) := by
  have houtcome := performAll_running setting stage command
  obtain ⟨written, hwritten⟩ := houtcome.exists_emit
  exact ⟨houtcome, fun hclear hlasts _ _ => houtcome.ranToEnd hclear hlasts,
    by rw [hwritten]; rfl, by rw [hwritten]; rfl⟩

/-- A command that writes one letter and exits, where the cursor has no phase: the letter is on the
terminal, but neither it nor the end of its line is recorded. -/
theorem running_unprojected :
    ∃ commands : Commands, commands [] "x" = .started ["a"] (.exited 0) ∧
      let setting := (quietSetting hugeBlink).offering commands
      let stage := Stage.initial (.ofSeed 0)
      let result := stage.performAll setting (stage.session.running commands "x")
      setting.unseen? "a" 0 ≠ none ∧ hugeBlink.frameCount (.int Session.actionPause) = .ok 30 ∧
        result.1.session.buffer = ("a" : Text) ∧ result.1.frames.size = 0 ∧ result.2 ≠ none := by
  refine ⟨fun _ _ => .started ["a"] (.exited 0), rfl, ?_⟩
  decide +kernel

end Stage

end Screencast
