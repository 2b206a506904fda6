import Screencast.Proofs.Number.Reaching
import Screencast.Proofs.Replay.Sheet

/-!
# The moments that scripts consist of

`Cue.Usual` collects what has to be checked of single cues so that it holds of all cues of a script:
`Step.cues_forall` goes through the steps, `cueSheet_forall` through the records.  The halt of a wait
that never ends is kept apart.
-/

namespace Screencast

/-- A property of the cues that steps consist of, for commands that may halt in their own ways. -/
structure Cue.Usual (commands : Commands) (P : Cue → Prop) : Prop where
  key : ∀ pressed session, P (.key pressed session)
  hold : ∀ session, P (.hold Session.actionPause session)
  flash : ∀ session, P (.flash session)
  turn : ∀ session, P (.turn session)
  log : ∀ entry, P (.log entry)
  failed : ∀ failure, P (.halt (.failed failure))
  refused : ∀ before command halt, commands before command = .refused halt → P (.halt halt)
  halted : ∀ before command texts halt,
    commands before command = .started texts (.halted halt) → P (.halt halt)

variable {commands : Commands} {P : Cue → Prop}

namespace Session

variable (session : Session)

theorem typing_forall (h : Cue.Usual commands P) (text : Text) :
    ∀ cue ∈ session.typing text, P cue := by
  induction text generalizing session with
  | nil => exact nofun
  | cons c rest ih =>
      rw [typing, List.forall_mem_cons]
      exact ⟨h.key _ _, ih _⟩

theorem deleting_forall (h : Cue.Usual commands P) (count : Nat) :
    ∀ cue ∈ session.deleting count, P cue := by
  induction count generalizing session with
  | zero => exact nofun
  | succ count ih =>
      rw [deleting]
      split
      · exact nofun
      · rw [List.forall_mem_cons]
        exact ⟨h.key _ _, ih _⟩

theorem receiving_forall (h : Cue.Usual commands P) (texts : List Text) :
    ∀ cue ∈ session.receiving texts, P cue := by
  induction texts generalizing session with
  | nil => exact nofun
  | cons text rest ih =>
      rw [receiving, List.forall_mem_cons]
      exact ⟨h.flash _, ih _⟩

theorem ending_forall (h : Cue.Usual commands P) (command : Text) (ending : Ending)
    (hhalted : ∀ halt, ending = .halted halt → P (.halt halt)) :
    ∀ cue ∈ session.ending command ending, P cue := by
  cases ending with
  | halted halt =>
      rw [Session.ending, List.forall_mem_singleton]
      exact hhalted halt rfl
  | quiet =>
      rw [Session.ending, List.forall_mem_singleton]
      exact h.hold _
  | exited status =>
      simp only [Session.ending]
      by_cases hsignal : status < 0
      · rw [if_pos hsignal, List.forall_mem_singleton]
        exact h.failed _
      · rw [if_neg hsignal, List.forall_mem_append, List.forall_mem_singleton]
        refine ⟨?_, h.hold _⟩
        split
        · exact nofun
        · rw [List.forall_mem_singleton]
          exact h.log _

theorem running_forall (h : Cue.Usual commands P) (command : Text) :
    ∀ cue ∈ session.running commands command, P cue := by
  rw [running, List.forall_mem_cons, List.forall_mem_cons]
  refine ⟨h.log _, h.turn _, ?_⟩
  cases hlaunch : commands session.commands command with
  | refused halt =>
      rw [List.forall_mem_singleton]
      exact h.refused _ _ halt hlaunch
  | started texts ending =>
      rw [List.forall_mem_append]
      refine ⟨receiving_forall _ h texts, ending_forall _ h command ending ?_⟩
      rintro halt rfl
      exact h.halted _ _ texts halt hlaunch

theorem entering_forall (h : Cue.Usual commands P) : ∀ cue ∈ session.entering commands, P cue := by
  rw [entering, List.forall_mem_cons]
  refine ⟨h.hold _, ?_⟩
  split
  · exact nofun
  · exact running_forall _ h _

theorem clearing_forall (h : Cue.Usual commands P) : ∀ cue ∈ session.clearing, P cue := by
  rw [clearing, List.forall_mem_append, List.forall_mem_singleton]
  exact ⟨typing_forall session h clearWord, h.hold _⟩

theorem waiting_forall (h : Cue.Usual commands P) (text : Text) (timeout : Number)
    (hendless : Text.occursIn text session.buffer = false → timeout.Boundless → P (.halt .endless)) :
    ∀ cue ∈ session.waiting text timeout, P cue := by
  unfold waiting
  cases hpresent : Text.occursIn text session.buffer with
  | true => exact nofun
  | false =>
      rw [if_neg Bool.false_ne_true]
      -- a look at the screen is held as long as the pause after an action
      have hpoll : P (.hold pollInterval session) := h.hold session
      cases hsteps : timeout.stepsToReach pollInterval with
      | none =>
          rw [List.forall_mem_cons, List.forall_mem_singleton]
          exact ⟨hpoll, hendless hpresent (Number.stepsToReach_eq_none_iff.mp hsteps)⟩
      | some polls =>
          rw [List.forall_mem_append, List.forall_mem_singleton]
          refine ⟨fun cue hcue => ?_, h.failed _⟩
          rwa [List.eq_of_mem_replicate hcue]

end Session

/-- What is usual holds of all cues of a step; of the endless halt it has to hold if the step waits
without end. -/
theorem Step.cues_forall (h : Cue.Usual commands P) (session : Session) (step : Step)
    (hendless : ∀ text timeout, step = .waitFor text timeout →
      Text.occursIn text session.buffer = false → timeout.Boundless → P (.halt .endless)) :
    ∀ cue ∈ step.cues commands session, P cue := by
  cases step with
  | typeText text => exact session.typing_forall h text
  | delete count => exact session.deleting_forall h count
  | enter => exact session.entering_forall h
  | paste =>
      rw [Step.cues, Session.pasting, List.forall_mem_singleton]
      exact h.hold _
  | copy span =>
      rw [Step.cues, List.forall_mem_singleton]
      exact h.turn _
  | clear => exact session.clearing_forall h
  | waitFor text timeout => exact session.waiting_forall h text timeout (hendless text timeout rfl)

/-- What is usual, and holds of the endless halt as well, holds of all cues of a script. -/
theorem cueSheet_forall (h : Cue.Usual commands P) (hendless : P (.halt .endless))
    (session : Session) (records : List Json) : ∀ cue ∈ cueSheet commands session records, P cue := by
  induction records generalizing session with
  | nil => exact nofun
  | cons record rest ih =>
      rw [cueSheet, List.forall_mem_append]
      refine ⟨?_, ih _⟩
      unfold recordCues
      cases Step.ofRecord record with
      | ok step => exact step.cues_forall h session fun _ _ _ _ _ => hendless
      | error error =>
          rw [List.forall_mem_singleton]
          exact h.failed _

end Screencast
