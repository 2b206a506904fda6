import Screencast.Proofs.Replay.Effect

/-!
# Output in other pieces

How the output of a command is cut into pieces is an accident.  Commands `Recut` others if they write
the same texts in other pieces and end alike.  The sheets of a script with such commands are not equal,
but they differ only where an output is received: `recutSheet_cueSheet`.
-/

namespace Screencast

/-- The same output in other pieces, with the same end. -/
inductive Launch.Recut : Launch → Launch → Prop
  | refused (halt : Halt) : Recut (.refused halt) (.refused halt)
  | started {texts others : List Text} (same : texts.flatten = others.flatten) (ending : Ending) :
      Recut (.started texts ending) (.started others ending)

/-- Commands that do the same as others, apart from the pieces of their outputs. -/
def Commands.Recut (commands other : Commands) : Prop :=
  ∀ before command, (commands before command).Recut (other before command)

/-- The same setting with other commands. -/
def Setting.offering (commands : Commands) (setting : Setting) : Setting := { setting with commands }

namespace Stage

variable (setting : Setting) (commands : Commands)

/-- Commands have done their part when the cues are listed. -/
theorem perform_offering (cue : Cue) (stage : Stage) :
    stage.perform (setting.offering commands) cue = stage.perform setting cue := by
  cases cue <;> rfl

theorem performAll_offering (cues : List Cue) (stage : Stage) :
    stage.performAll (setting.offering commands) cues = stage.performAll setting cues := by
  induction cues generalizing stage with
  | nil => rfl
  | cons cue rest ih =>
      rw [performAll_cons, performAll_cons, perform_offering]
      exact congrArg (andThen _) (funext ih)

end Stage

/-- Cues that are the same apart from the pieces of outputs.  The turn in front of an output brings on
stage the session that receives it. -/
inductive RecutSheet : List Cue → List Cue → Prop
  | nil : RecutSheet [] []
  | cons (cue : Cue) {cues others : List Cue} (later : RecutSheet cues others) :
      RecutSheet (cue :: cues) (cue :: others)
  | output (session : Session) {texts pieces : List Text} (same : texts.flatten = pieces.flatten)
      {cues others : List Cue} (later : RecutSheet cues others) :
      RecutSheet (.turn session :: (session.receiving texts ++ cues))
        (.turn session :: (session.receiving pieces ++ others))

namespace RecutSheet

theorem refl (cues : List Cue) : RecutSheet cues cues := by
  induction cues with
  | nil => exact .nil
  | cons cue rest ih => exact .cons cue ih

theorem append {cues others more rest : List Cue} (h : RecutSheet cues others)
    (h' : RecutSheet more rest) : RecutSheet (cues ++ more) (others ++ rest) := by
  induction h with
  | nil => exact h'
  | cons cue later ih => exact .cons cue ih
  | output session same later ih =>
      simp only [List.cons_append, List.append_assoc]
      exact .output session same ih

/-- The session in the end does not depend on the pieces. -/
theorem after_eq {cues others : List Cue} (h : RecutSheet cues others) (session : Session) :
    session.after cues = session.after others := by
  induction h generalizing session with
  | nil => rfl
  | cons cue later ih =>
      rw [Session.after_cons, Session.after_cons]
      exact ih _
  | output started same later ih =>
      simp only [Session.after_cons, Session.after_append, Cue.session?, Option.getD_some,
        Session.after_receiving, Session.received_eq_emit, same]
      exact ih _

end RecutSheet

section

variable {commands other : Commands} (h : commands.Recut other)

include h

theorem recutSheet_running (session : Session) (command : Text) :
    RecutSheet (session.running commands command) (session.running other command) := by
  have hlaunch := h session.commands command
  simp only [Session.running]
  generalize commands session.commands command = launch at hlaunch ⊢
  generalize other session.commands command = cut at hlaunch ⊢
  cases hlaunch with
  | refused halt => exact .refl _
  | started same ending =>
      simp only [Session.received_eq_emit, same]
      exact .cons _ (.output _ same (.refl _))

theorem recutSheet_recordCues (session : Session) (record : Json) :
    RecutSheet (recordCues commands session record) (recordCues other session record) := by
  unfold recordCues
  cases Step.ofRecord record with
  | error error => exact .refl _
  | ok step =>
      cases step with
      | enter =>
          simp only [Step.cues, Session.entering]
          apply RecutSheet.cons
          split
          · exact .nil
          · exact recutSheet_running h _ _
      | _ => exact .refl _

/-- The sheets of a script differ only in the pieces of outputs. -/
theorem recutSheet_cueSheet (session : Session) (records : List Json) :
    RecutSheet (cueSheet commands session records) (cueSheet other session records) := by
  induction records generalizing session with
  | nil => exact .nil
  | cons record rest ih =>
      have hrecord := recutSheet_recordCues h session record
      rw [cueSheet, cueSheet, hrecord.after_eq]
      exact hrecord.append (ih _)

end

end Screencast
