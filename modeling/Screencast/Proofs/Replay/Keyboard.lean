import Screencast.Proofs.Replay.Effect

/-!
# What is typed is what is run

A session keeps what was typed since the last command in two places: at the end of the buffer, where
it is seen, and as the pending text, from which the command is taken.  `typedLine` replays nothing but
the keys that were pressed since the last return or clearing, and `launched` lists the commands that
lines typed in this way call for.  `typed_is_run` says that between two steps of a replay both agree
with the session, and what each step adds.
-/

namespace Screencast

/-- A step that is performed, with the session that it begins with. -/
structure Act where
  session : Session
  step : Step

/-- The acts of records that are performed without a halt. -/
def acts (commands : Commands) : Session → List Json → List Act
  | _, [] => []
  | session, record :: rest =>
    match Step.ofRecord record with
    | .ok step => ⟨session, step⟩ :: acts commands (session.after (step.cues commands session)) rest
    | .error _ => []

/-! ## The line that is typed -/

/-- What is done to the line that is typed. -/
inductive Keystroke where
  | insert (text : Text)
  /-- As many code points are deleted at its end, or all if there are fewer. -/
  | erase (count : Nat)

def Keystroke.press (line : Text) : Keystroke → Text
  | .insert text => line ++ text
  | .erase count => line.take (line.length - min count line.length)

namespace Act

/-- Whether a new line begins after an act. -/
def endsLine (act : Act) : Bool :=
  match act.step with
  | .enter | .clear => true
  | .typeText _ | .delete _ | .paste | .copy _ | .waitFor _ _ => false

/-- What an act does to the line: it types a text or the clipboard, or deletes. -/
def keystroke? (act : Act) : Option Keystroke :=
  match act.step with
  | .typeText text => some (.insert text)
  | .paste => some (.insert act.session.clipboard)
  | .delete count => some (.erase count)
  | .enter | .clear | .copy _ | .waitFor _ _ => none

/-- The command that an act runs when this line has been typed: return runs the line without the
blanks around it, unless there is nothing else on it. -/
def launch (act : Act) (line : Text) : List Text :=
  match act.step with
  | .enter =>
    if line.all (CodePoint.satisfies Text.isBlank) then []
    else [Text.trimWhile (CodePoint.satisfies Text.isBlank) line]
  | .typeText _ | .delete _ | .paste | .copy _ | .clear | .waitFor _ _ => []

theorem launch_enter (session : Session) :
    launch ⟨session, .enter⟩ session.pending
      = if session.submit.1.isEmpty then [] else [session.submit.1] := by
  simp only [launch, Session.submit, Text.isEmpty_trimWhile]

end Act

/-- The acts since the last line ended. -/
def lastLine (past : List Act) : List Act :=
  (past.reverse.takeWhile fun act => !act.endsLine).reverse

/-- The line that acts have typed, from their keys alone. -/
def typedLine (past : List Act) : Text :=
  ((lastLine past).filterMap Act.keystroke?).foldl Keystroke.press []

/-- The commands that acts call for, after other acts. -/
def launchedAfter (past : List Act) : List Act → List Text
  | [] => []
  | act :: rest => act.launch (typedLine past) ++ launchedAfter (past ++ [act]) rest

/-- The commands that acts call for. -/
def launched (acts : List Act) : List Text := launchedAfter [] acts

theorem lastLine_concat (past : List Act) (act : Act) :
    lastLine (past ++ [act]) = if act.endsLine then [] else lastLine past ++ [act] := by
  cases h : act.endsLine <;> simp [lastLine, h]

theorem typedLine_concat (past : List Act) (act : Act) :
    typedLine (past ++ [act])
      = if act.endsLine then []
        else act.keystroke?.elim (typedLine past) (Keystroke.press (typedLine past)) := by
  rw [typedLine, lastLine_concat]
  split
  · rfl
  · rw [List.filterMap_append, List.foldl_append]
    cases h : act.keystroke? with
    | none => simp [h, typedLine]
    | some key => simp [h, typedLine]

theorem launchedAfter_append (past acts more : List Act) :
    launchedAfter past (acts ++ more)
      = launchedAfter past acts ++ launchedAfter (past ++ acts) more := by
  induction acts generalizing past with
  | nil => simp [launchedAfter]
  | cons act rest ih =>
      rw [List.cons_append, launchedAfter, launchedAfter, ih, List.append_assoc, List.append_assoc]
      rfl

theorem launched_concat (past : List Act) (act : Act) :
    launched (past ++ [act]) = launched past ++ act.launch (typedLine past) := by
  simp [launched, launchedAfter_append, launchedAfter]

/-! ## The line and the session

The invariant: the pending text ends the buffer, it is the line that was typed, and the commands
started are those that the lines called for. -/

/-- A session in step with the acts that led to it. -/
structure InStep (past : List Act) (session : Session) : Prop where
  suffix : session.pending <:+ session.buffer
  line : session.pending = typedLine past
  commands : session.commands = launched past

namespace InStep

variable {past : List Act} {session : Session}

theorem empty : InStep [] .empty := ⟨List.nil_suffix, rfl, rfl⟩

theorem length_le (h : InStep past session) : session.pending.length ≤ session.buffer.length :=
  h.suffix.length_le

/-- Typing at the end of both copies. -/
theorem type (h : InStep past session) {act : Act} {text : Text}
    (hends : act.endsLine = false) (hkey : act.keystroke? = some (.insert text))
    (hlaunch : ∀ line, act.launch line = []) : InStep (past ++ [act]) (session.type text) where
  suffix := by
    obtain ⟨before, hbefore⟩ := h.suffix
    exact ⟨before, by simp [Session.type, ← hbefore]⟩
  line := by
    rw [typedLine_concat, hends, hkey, ← h.line]
    rfl
  commands := by
    rw [launched_concat, hlaunch, List.append_nil, ← h.commands]
    rfl

/-- Deleting takes as much from the pending text as from the buffer, until the pending text is
exhausted. -/
theorem erase (h : InStep past session) {act : Act} {count : Nat}
    (hends : act.endsLine = false) (hkey : act.keystroke? = some (.erase count))
    (hlaunch : ∀ line, act.launch line = []) : InStep (past ++ [act]) (session.erase count) where
  suffix := by
    obtain ⟨before, hbefore⟩ := h.suffix
    simp only [Session.erase, ← hbefore, List.length_append, List.take_append]
    by_cases hcount : count ≤ session.pending.length
    · -- the deletion stays within the line: what is before it remains
      have hbefore : before.length ≤ before.length + session.pending.length - count := by omega
      have hrest : before.length + session.pending.length - count - before.length
          = session.pending.length - min count (before.length + session.pending.length) := by omega
      rw [List.take_of_length_le hbefore, hrest]
      exact List.suffix_append _ _
    · -- the deletion takes the whole line, and goes on before it
      have hnone : session.pending.length - min count (before.length + session.pending.length)
          = 0 := by
        omega
      rw [hnone, List.take_zero]
      exact List.nil_suffix
  line := by
    have hlength := h.length_le
    rw [typedLine_concat, hends, hkey, ← h.line]
    simp only [Session.erase, Bool.false_eq_true, if_false, Option.elim_some, Keystroke.press]
    congr 1
    omega
  commands := by
    rw [launched_concat, hlaunch, List.append_nil, ← h.commands]
    rfl

/-- Acts that neither type nor run anything. -/
theorem keep (h : InStep past session) {act : Act} {next : Session}
    (hends : act.endsLine = false) (hkey : act.keystroke? = none)
    (hlaunch : ∀ line, act.launch line = []) (hbuffer : next.buffer = session.buffer)
    (hpending : next.pending = session.pending) (hcommands : next.commands = session.commands) :
    InStep (past ++ [act]) next where
  suffix := by
    rw [hpending, hbuffer]
    exact h.suffix
  line := by
    rw [typedLine_concat, hends, hkey, hpending, h.line]
    rfl
  commands := by
    rw [launched_concat, hlaunch, List.append_nil, hcommands, h.commands]

/-- Acts after which nothing is pending. -/
theorem endLine (h : InStep past session) {act : Act} {next : Session}
    (hends : act.endsLine = true) (hpending : next.pending = [])
    (hcommands : next.commands = session.commands ++ act.launch session.pending) :
    InStep (past ++ [act]) next where
  suffix := by
    rw [hpending]
    exact List.nil_suffix
  line := by
    rw [typedLine_concat, hends, hpending]
    rfl
  commands := by
    rw [launched_concat, hcommands, h.commands, h.line]

/-- Each step keeps the session in step. -/
theorem step (h : InStep past session) (commands : Commands) (step : Step) :
    InStep (past ++ [⟨session, step⟩]) (session.after (step.cues commands session)) := by
  cases step with
  | typeText text =>
      simp only [Step.cues, Session.after_typing]
      exact h.type rfl rfl fun _ => rfl
  | delete count =>
      simp only [Step.cues, Session.after_deleting]
      exact h.erase rfl rfl fun _ => rfl
  | paste => exact h.type rfl rfl fun _ => rfl
  | copy span => exact h.keep rfl rfl (fun _ => rfl) rfl rfl rfl
  | waitFor text timeout =>
      simp only [Step.cues, Session.after_waiting]
      exact h.keep rfl rfl (fun _ => rfl) rfl rfl rfl
  | clear =>
      simp only [Step.cues, Session.after_clearing]
      exact h.endLine rfl rfl (List.append_nil _).symm
  | enter =>
      simp only [Step.cues]
      obtain ⟨written, hwritten⟩ := session.after_entering commands
      rw [hwritten]
      split
      · next hblank =>
        exact h.endLine rfl rfl (by rw [Act.launch_enter, if_pos hblank, List.append_nil]; rfl)
      · next hword =>
        exact h.endLine rfl rfl (by rw [Act.launch_enter, if_neg hword]; rfl)

end InStep

end Screencast
