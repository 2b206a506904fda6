import Screencast.Proofs.Replay.Sheet

/-!
# What steps do to the session

The cues of a step show the session changing little by little.  The lemmas of this module give the
session after all of them: typing and deleting code point by code point comes to the same as typing
and deleting at once, and a command writes its pieces of output one after the other.
-/

namespace Screencast.Session

variable (session : Session)

/-- The session without so many code points at the end of the buffer, and without as many at the end
of the pending text. -/
def erase (count : Nat) : Session :=
  { session with
    buffer := session.buffer.take (session.buffer.length - count)
    pending := session.pending.take
      (session.pending.length - min count session.buffer.length) }

@[simp] theorem erase_zero : session.erase 0 = session := by
  simp [erase]

theorem erase_erase (count more : Nat) :
    (session.erase count).erase more = session.erase (count + more) := by
  have hbuffer : (session.buffer.take (session.buffer.length - count)).length
      = session.buffer.length - count :=
    List.length_take_of_le (Nat.sub_le _ _)
  have hpending : (session.pending.take (session.pending.length
        - min count session.buffer.length)).length
      = session.pending.length - min count session.buffer.length :=
    List.length_take_of_le (Nat.sub_le _ _)
  have hmin : min count session.buffer.length + min more (session.buffer.length - count)
      = min (count + more) session.buffer.length := by
    omega
  simp only [erase, hbuffer, hpending, List.take_take, Nat.sub_sub, hmin]
  congr 2
  · exact Nat.min_eq_left (Nat.sub_le_sub_left (Nat.le_add_right _ _) _)
  · refine Nat.min_eq_left (Nat.sub_le_sub_left ?_ _)
    rw [← hmin]
    exact Nat.le_add_right _ _

/-- There is nothing to delete in an empty buffer. -/
theorem erase_of_buffer_nil (h : session.buffer = []) (count : Nat) :
    session.erase count = session := by
  obtain ⟨buffer, pending, clipboard, commands⟩ := session
  obtain rfl : buffer = [] := h
  simp [erase]

theorem delete_natCast (count : Nat) : session.delete count = session.erase count := by
  have hcount : session.deletable count = ((min count session.buffer.length : Nat) : Int) := by
    rw [deletable]
    omega
  simp only [delete, hcount]
  -- the program leaves the session alone when there is nothing to delete
  by_cases hnone : min count session.buffer.length = 0
  · rw [hnone, Int.ofNat_zero, if_pos rfl]
    rcases Nat.min_eq_zero_iff.mp hnone with hcount | hbuffer
    · rw [hcount, erase_zero]
    · rw [erase_of_buffer_nil session (List.length_eq_zero_iff.mp hbuffer)]
  · have hpositive : 0 < min count session.buffer.length := Nat.pos_of_ne_zero hnone
    have hlength : session.buffer.length - min count session.buffer.length
        = session.buffer.length - count := by
      omega
    rw [if_neg (by omega), Text.upTo_neg _ hpositive, Text.upTo_max_zero_sub, hlength]
    rfl

/-! ## Typing and deleting -/

theorem type_nil : session.type [] = session := by
  simp [type]

theorem type_type (text more : Text) :
    (session.type text).type more = session.type (text ++ more) := by
  simp [type]

/-- Typing code point by code point comes to typing the text. -/
theorem after_typing (text : Text) : session.after (session.typing text) = session.type text := by
  induction text generalizing session with
  | nil => rw [type_nil]; rfl
  | cons c rest ih =>
      rw [typing, after_cons]
      simp only [Cue.session?, Option.getD_some]
      rw [ih, type_type, List.singleton_append]

/-- Deleting code point by code point comes to deleting as many at once. -/
theorem after_deleting (count : Nat) :
    session.after (session.deleting count) = session.erase count := by
  induction count generalizing session with
  | zero => rw [erase_zero]; rfl
  | succ count ih =>
      rw [deleting]
      split
      · next hnone =>
        have hbuffer : session.buffer = [] := by
          simp only [deletable] at hnone
          exact List.length_eq_zero_iff.mp (by omega)
        rw [after_nil, erase_of_buffer_nil session hbuffer]
      · have hone : session.delete 1 = session.erase 1 := session.delete_natCast 1
        rw [after_cons]
        simp only [Cue.session?, Option.getD_some]
        rw [ih, hone, erase_erase, Nat.add_comm]

/-! ## Commands -/

theorem emit_nil : session.emit [] = session := by
  simp [emit]

theorem emit_emit (text more : Text) :
    (session.emit text).emit more = session.emit (text ++ more) := by
  simp [emit]

theorem received_eq_emit (texts : List Text) :
    session.received texts = session.emit texts.flatten := by
  induction texts generalizing session with
  | nil => exact session.emit_nil.symm
  | cons text rest ih =>
      rw [received, List.foldl_cons, ← received, ih, emit_emit, List.flatten_cons]

theorem after_receiving (texts : List Text) :
    session.after (session.receiving texts) = session.received texts := by
  induction texts generalizing session with
  | nil => rfl
  | cons text rest ih =>
      rw [receiving, after_cons]
      exact ih (session.emit text)

/-- The end of an output writes a line feed or nothing. -/
theorem after_ending (command : Text) (ending : Ending) :
    ∃ written, session.after (session.ending command ending) = session.emit written := by
  cases ending with
  | halted halt => exact ⟨[], session.emit_nil.symm⟩
  | quiet => exact ⟨"\n", rfl⟩
  | exited status =>
      simp only [Session.ending]
      by_cases hsignal : status < 0
      · exact ⟨[], by rw [if_pos hsignal, emit_nil]; rfl⟩
      · refine ⟨"\n", ?_⟩
        rw [if_neg hsignal, after_append]
        split <;> rfl

/-- A command that is run is noted and then only writes. -/
theorem after_running (commands : Commands) (command : Text) :
    ∃ written, session.after (session.running commands command)
      = (session.start command).emit written := by
  rw [running, after_cons, after_cons]
  simp only [Cue.session?, Option.getD_none, Option.getD_some]
  cases commands session.commands command with
  | refused halt => exact ⟨[], (emit_nil _).symm⟩
  | started texts ending =>
      simp only [after_append, after_receiving]
      obtain ⟨written, hwritten⟩ :=
        after_ending ((session.start command).received texts) command ending
      exact ⟨texts.flatten ++ written, by rw [hwritten, received_eq_emit, emit_emit]⟩

/-- Return ends the line, and a command that is not empty is noted and then only writes. -/
theorem after_entering (commands : Commands) :
    ∃ written, session.after (session.entering commands)
      = if session.submit.1.isEmpty then session.submit.2
        else (session.submit.2.start session.submit.1).emit written := by
  simp only [entering, after_cons, Cue.session?, Option.getD_some]
  split
  · exact ⟨[], rfl⟩
  · exact after_running session.submit.2 commands session.submit.1

/-! ## The other steps -/

theorem after_clearing :
    session.after session.clearing = (session.type clearWord).clear := by
  rw [clearing, after_append]
  rfl

theorem after_waiting (text : Text) (timeout : Number) :
    session.after (session.waiting text timeout) = session := by
  have hpolls (polls : Nat) (last : Cue) (hlast : last.session? = none) :
      session.after (List.replicate polls (.hold pollInterval session) ++ [last]) = session := by
    induction polls with
    | zero => simp [hlast]
    | succ polls ih => exact ih
  unfold waiting
  split
  · rfl
  · split
    · rfl
    · exact hpolls _ _ rfl

end Screencast.Session
