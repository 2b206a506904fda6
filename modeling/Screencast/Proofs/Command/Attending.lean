import Mathlib.Logic.Relation
import Screencast.Proofs.Command.Hearing
import Screencast.Replay.Cue

/-!
# Attending a command

A command that is listened to is a process of its own, which exits when it likes, before its pipes end or
after that.  `Attends` is one step of the two together: the process exits, there is a turn of listening, or
the listening stops.  When it stops, the process is asked whether it still runs, and killed if it does.

`attended` says which processes are killed: those that still run when the listening stops, for whatever
reason it stops.  `killed_lingering` is one whose pipes have both ended.
-/

namespace Screencast

/-- Why the listening to a command stops. -/
inductive Departure where
  /-- Both pipes have ended. -/
  | ended
  /-- A read cannot be fed to the stream of its pipe. -/
  | failed (fault : Terminal.Fault)
  /-- The user interrupts, or nobody wants more of the output. -/
  | left
  deriving DecidableEq, Repr

/-- How far the listening to a command is. -/
inductive Progress where
  | listening
  /-- It has stopped, and the process was asked whether it still runs. -/
  | stopped (departure : Departure) (running : Bool)
  | finished (departure : Departure) (running : Bool)
  deriving DecidableEq, Repr

/-- Why the listening stopped, if it has, and whether the process still ran then. -/
def Progress.departure? : Progress → Option (Departure × Bool)
  | .listening => none
  | .stopped departure running | .finished departure running => some (departure, running)

/-- A command that is listened to. -/
structure Attendance where
  progress : Progress
  /-- What the pipes still hold. -/
  pipes : Pipes
  listener : Listener
  /-- The output so far. -/
  pieces : List (Pipe × List Char)
  /-- The exit status of the process, if it has exited. -/
  status : Option Int
  killed : Bool
  /-- Whether an end of a pipe is still held open for reading. -/
  isOpen : Pipe → Bool

namespace Attendance

/-- A command that has just been started, with what it writes to its pipes. -/
def start (written : Pipe → List Nat) : Attendance where
  progress := .listening
  pipes := .holding written
  listener := .initial
  pieces := []
  status := none
  killed := false
  isOpen := fun _ => true

/-- The same command after more has been heard of it. -/
def onward (now : Attendance) (pipes : Pipes) (listener : Listener)
    (more : List (Pipe × List Char)) : Attendance :=
  { now with pipes, listener, pieces := now.pieces ++ more }

/-- Stops listening and asks the process whether it still runs. -/
def stop (now : Attendance) (departure : Departure) : Attendance :=
  { now with progress := .stopped departure now.status.isNone }

/-- The exit status of a process that is killed. -/
def killedStatus : Int := -9

/-- Kills the process, which may have exited since it was asked. -/
def kill (now : Attendance) : Attendance :=
  { now with killed := true, status := some (now.status.getD killedStatus) }

/-- Closes both pipes, and that is all. -/
def close (now : Attendance) (departure : Departure) (running : Bool) : Attendance :=
  { now with progress := .finished departure running, isOpen := fun _ => false }

/-- A reason to stop listening. -/
inductive Departs (size : Nat) (now : Attendance) : Departure → Prop
  | ended (h : ∀ pipe, now.pipes pipe = none) : Departs size now .ended
  | failed {reads : List (Pipe × List Nat)} {next : Pipes} {fault : Terminal.Fault}
      (turn : Turn size now.pipes reads next) (h : (now.listener.hear reads).2 = some fault) :
      Departs size now (.failed fault)
  | left : Departs size now .left

end Attendance

/-- What can happen next to a command that is listened to with reads of at most the given size, and that
exits with the given status unless it is killed before. -/
inductive Attends (size : Nat) (own : Int) : Attendance → Attendance → Prop
  | exit {now : Attendance} (running : now.status = none) :
      Attends size own now { now with status := some own }
  | turn {now : Attendance} {reads : List (Pipe × List Nat)} {next : Pipes}
      (listening : now.progress = .listening) (turn : Turn size now.pipes reads next)
      (heard : (now.listener.hear reads).2 = none) :
      Attends size own now
        (now.onward next (now.listener.after reads) (now.listener.hear reads).1)
  | stop {now : Attendance} {departure : Departure} (listening : now.progress = .listening)
      (departs : now.Departs size departure) : Attends size own now (now.stop departure)
  | kill {now : Attendance} {departure : Departure} (running : now.progress = .stopped departure true) :
      Attends size own now (now.kill.close departure true)
  | spare {now : Attendance} {departure : Departure} (exited : now.progress = .stopped departure false) :
      Attends size own now (now.close departure false)

/-- What can come of a command that is listened to. -/
abbrev BecomesOf (size : Nat) (own : Int) : Attendance → Attendance → Prop :=
  Relation.ReflTransGen (Attends size own)

/-! ## What every step keeps -/

namespace Attendance

/-- What holds of a command at every point of the listening. -/
def Regular (own : Int) (now : Attendance) : Prop :=
  match now.progress with
  | .listening =>
    now.killed = false ∧ (∀ pipe, now.isOpen pipe = true) ∧
      (now.status = none ∨ now.status = some own)
  | .stopped _ running =>
    now.killed = false ∧ (∀ pipe, now.isOpen pipe = true) ∧
      (now.status = none ∧ running = true ∨ now.status = some own)
  | .finished _ running =>
    now.killed = running ∧ (∀ pipe, now.isOpen pipe = false) ∧
      (now.status = some own ∨ now.status = some killedStatus ∧ running = true)

variable {size : Nat} {own : Int} {now next last : Attendance} {written : Pipe → List Nat}

theorem regular_start (own : Int) (written : Pipe → List Nat) : (start written).Regular own :=
  ⟨rfl, fun _ => rfl, .inl rfl⟩

theorem Regular.step (h : now.Regular own) (hstep : Attends size own now next) : next.Regular own := by
  cases hstep with
  | exit running =>
      -- once the listening is over the process has exited
      rcases hprogress : now.progress with _ | ⟨departure, asked⟩ | ⟨departure, asked⟩ <;>
        simp only [Regular, hprogress] at h ⊢
      · exact ⟨h.1, h.2.1, .inr trivial⟩
      · exact ⟨h.1, h.2.1, .inr trivial⟩
      · rcases h.2.2 with hown | ⟨hkilled, -⟩
        · rw [running] at hown
          cases hown
        · rw [running] at hkilled
          cases hkilled
  | turn listening turn heard =>
      simp only [Regular, onward, listening] at h ⊢
      exact h
  | stop listening departs =>
      simp only [Regular, listening] at h
      refine ⟨h.1, h.2.1, ?_⟩
      rcases h.2.2 with hnone | hown
      · exact .inl ⟨hnone, by rw [hnone]; rfl⟩
      · exact .inr hown
  | kill running =>
      simp only [Regular, running] at h
      refine ⟨rfl, fun _ => rfl, ?_⟩
      rcases h.2.2 with ⟨hnone, -⟩ | hown
      · exact .inr ⟨by simp [close, kill, hnone], rfl⟩
      · exact .inl (by simp [close, kill, hown])
  | spare exited =>
      simp only [Regular, exited] at h
      refine ⟨h.1, fun _ => rfl, ?_⟩
      rcases h.2.2 with ⟨-, hasked⟩ | hown
      · cases hasked
      · exact .inl hown

theorem regular_of_becomes (h : BecomesOf size own (start written) last) : last.Regular own := by
  induction h with
  | refl => exact regular_start own written
  | tail _ hstep ih => exact ih.step hstep

/-- A listening that has stopped did so at some point, for a reason that it had there. -/
theorem exists_stop (h : BecomesOf size own (start written) last) {departure : Departure} {running : Bool}
    (hlast : last.progress.departure? = some (departure, running)) :
    ∃ now, BecomesOf size own (start written) now ∧ now.progress = .listening ∧
      now.Departs size departure ∧ BecomesOf size own (now.stop departure) last ∧
      running = now.status.isNone := by
  induction h with
  | refl => cases hlast
  | tail hnow hstep ih =>
      have hlater := hstep
      cases hstep with
      | exit =>
          obtain ⟨now, hbefore, hlistening, hdeparts, hafter, hrunning⟩ := ih hlast
          exact ⟨now, hbefore, hlistening, hdeparts, hafter.tail hlater, hrunning⟩
      | turn listening =>
          rw [onward, listening] at hlast
          cases hlast
      | stop listening departs =>
          obtain ⟨rfl, rfl⟩ := Prod.mk.inj (Option.some.inj hlast)
          exact ⟨_, hnow, listening, departs, .refl, rfl⟩
      | kill stopped | spare stopped =>
          obtain ⟨rfl, rfl⟩ := Prod.mk.inj (Option.some.inj hlast)
          obtain ⟨now, hbefore, hlistening, hdeparts, hafter, hrunning⟩ := ih (by rw [stopped]; rfl)
          exact ⟨now, hbefore, hlistening, hdeparts, hafter.tail hlater, hrunning⟩

end Attendance

/-! ## What can come of it -/

/-- One turn makes one read, or none at the end of a pipe. -/
theorem Turn.reads_cases {size : Nat} {pipes next : Pipes} {reads : List (Pipe × List Nat)}
    (h : Turn size pipes reads next) : reads = [] ∨ ∃ read, reads = [read] := by
  cases h with
  | read pipe => exact .inr ⟨_, rfl⟩
  | close pipe => exact .inl rfl

namespace Listener

variable {listener : Listener}

theorem hear_append {heard : List (Pipe × List Nat)} (h : (listener.hear heard).2 = none)
    (rest : List (Pipe × List Nat)) :
    listener.hear (heard ++ rest)
      = ((listener.hear heard).1 ++ ((listener.after heard).hear rest).1,
          ((listener.after heard).hear rest).2) := by
  induction heard generalizing listener with
  | nil => rfl
  | cons read more ih =>
      obtain ⟨pipe, bytes⟩ := read
      cases hfault : ((listener.stream pipe).feed bytes).fault with
      | some fault =>
          rw [hear_cons_of_some hfault] at h
          cases h
      | none =>
          rw [hear_cons_of_none hfault] at h
          rw [List.cons_append, hear_cons_of_none hfault, hear_cons_of_none hfault, ih h, after,
            List.append_assoc]

/-- What is heard of the first read of several, and of the others. -/
theorem hear_cons {read : Pipe × List Nat} {rest : List (Pipe × List Nat)}
    (h : (listener.hear (read :: rest)).2 = none) :
    (listener.hear [read]).2 = none ∧
      listener.hear (read :: rest)
        = ((listener.hear [read]).1 ++ ((listener.after [read]).hear rest).1,
            ((listener.after [read]).hear rest).2) := by
  obtain ⟨pipe, bytes⟩ := read
  have hone : (listener.hear [(pipe, bytes)]).2 = none := by
    cases hfault : ((listener.stream pipe).feed bytes).fault with
    | some fault =>
        rw [hear_cons_of_some hfault] at h
        cases h
    | none => rw [hear_cons_of_none hfault]; rfl
  exact ⟨hone, hear_append hone rest⟩

/-- Reads that cannot all be heard are heard up to one that fails. -/
theorem exists_failing {reads : List (Pipe × List Nat)} {fault : Terminal.Fault}
    (h : (listener.hear reads).2 = some fault) :
    ∃ heard read rest, reads = heard ++ read :: rest ∧ (listener.hear heard).2 = none ∧
      (listener.hear heard).1 = (listener.hear reads).1 ∧
      ((listener.after heard).hear [read]).2 = some fault := by
  induction reads generalizing listener with
  | nil => cases h
  | cons read more ih =>
      obtain ⟨pipe, bytes⟩ := read
      cases hfault : ((listener.stream pipe).feed bytes).fault with
      | some fault' =>
          have hone := hear_cons_of_some hfault []
          rw [hear_cons_of_some hfault] at h ⊢
          exact ⟨[], (pipe, bytes), more, rfl, rfl, rfl, (congrArg Prod.snd hone).trans h⟩
      | none =>
          rw [hear_cons_of_none hfault] at h ⊢
          obtain ⟨heard, read, rest, hreads, hnone, hpieces, hfails⟩ := ih h
          refine ⟨(pipe, bytes) :: heard, read, rest, by rw [hreads]; rfl, ?_, ?_, hfails⟩
          · rw [hear_cons_of_none hfault, hnone]
          · rw [hear_cons_of_none hfault, hpieces]

/-- Each read gives one piece at most, so that reads can be heard up to any number of pieces. -/
theorem exists_hear_eq_take {reads : List (Pipe × List Nat)} {count : Nat}
    (h : count ≤ (listener.hear reads).1.length) :
    ∃ heard rest, reads = heard ++ rest ∧ (listener.hear heard).2 = none ∧
      (listener.hear heard).1 = (listener.hear reads).1.take count := by
  induction reads generalizing listener count with
  | nil => exact ⟨[], [], rfl, rfl, List.take_nil.symm⟩
  | cons read more ih =>
      obtain ⟨pipe, bytes⟩ := read
      cases hfault : ((listener.stream pipe).feed bytes).fault with
      | some fault =>
          rw [hear_cons_of_some hfault]
          exact ⟨[], (pipe, bytes) :: more, rfl, rfl, List.take_nil.symm⟩
      | none =>
          rw [hear_cons_of_none hfault] at h ⊢
          rcases htext : ((listener.stream pipe).feed bytes).text with _ | ⟨c, text⟩ <;>
            rw [htext] at h
          · obtain ⟨heard, rest, hreads, hnone, hpieces⟩ := ih h
            refine ⟨(pipe, bytes) :: heard, rest, by rw [hreads]; rfl, ?_, ?_⟩
            · rw [hear_cons_of_none hfault, hnone]
            · rw [hear_cons_of_none hfault, hpieces, htext]
              rfl
          · cases count with
            | zero => exact ⟨[], (pipe, bytes) :: more, rfl, rfl, rfl⟩
            | succ count =>
                obtain ⟨heard, rest, hreads, hnone, hpieces⟩ := ih (Nat.le_of_succ_le_succ h)
                refine ⟨(pipe, bytes) :: heard, rest, by rw [hreads]; rfl, ?_, ?_⟩
                · rw [hear_cons_of_none hfault, hnone]
                · rw [hear_cons_of_none hfault, hpieces, htext]
                  rfl

end Listener

namespace Attendance

variable {size : Nat} {own : Int} {now next last : Attendance} {written : Pipe → List Nat}

theorem onward_self (now : Attendance) : now.onward now.pipes now.listener [] = now := by
  rw [onward, List.append_nil]

theorem onward_onward (now : Attendance) (pipes pipes' : Pipes) (listener listener' : Listener)
    (more more' : List (Pipe × List Char)) :
    (now.onward pipes listener more).onward pipes' listener' more'
      = now.onward pipes' listener' (more ++ more') := by
  simp only [onward, List.append_assoc]

/-- A listening can go on through any first part of the reads that it may consist of: then both pipes have
ended, or the next of these reads is the next turn. -/
theorem exists_onward (own : Int) (now : Attendance) {heard rest : List (Pipe × List Nat)} {pipes : Pipes}
    (hlistens : Listens size pipes (heard ++ rest)) (hpipes : now.pipes = pipes)
    (hlistening : now.progress = .listening) (hheard : (now.listener.hear heard).2 = none) :
    ∃ left, BecomesOf size own now
        (now.onward left (now.listener.after heard) (now.listener.hear heard).1) ∧
      (rest = [] → ∀ pipe, left pipe = none) ∧
      ∀ read more, rest = read :: more → ∃ next, Turn size left [read] next := by
  generalize hreads : heard ++ rest = reads at hlistens
  induction hlistens generalizing now heard with
  | ended hnone =>
      obtain ⟨rfl, rfl⟩ := List.append_eq_nil_iff.mp hreads
      refine ⟨now.pipes, ?_, fun _ => hpipes ▸ hnone, nofun⟩
      have hsame : now.onward now.pipes (now.listener.after []) (now.listener.hear []).1 = now :=
        now.onward_self
      rw [hsame]
  | @turn pipes next reads more turn later ih =>
      subst hpipes
      rcases turn.reads_cases with rfl | ⟨read, rfl⟩
      · -- the end of a pipe is read on the way
        have hstep : Attends size own now (now.onward next now.listener []) :=
          .turn hlistening turn rfl
        obtain ⟨left, hbecomes, hended, hnext⟩ :=
          ih (now.onward next now.listener []) rfl hlistening hheard hreads
        rw [onward_onward] at hbecomes
        exact ⟨left, .head hstep hbecomes, hended, hnext⟩
      · cases heard with
        | nil =>
            -- the reads that are wanted have all been made
            have hsame : now.onward now.pipes (now.listener.after []) (now.listener.hear []).1 = now :=
              now.onward_self
            refine ⟨now.pipes, by rw [hsame], ?_, ?_⟩
            · rintro rfl
              cases hreads
            · rintro read' others rfl
              obtain ⟨rfl, -⟩ := List.cons.inj hreads
              exact ⟨next, turn⟩
        | cons first heard =>
            obtain ⟨rfl, hmore⟩ := List.cons.inj hreads
            obtain ⟨hfirst, happend⟩ := Listener.hear_cons hheard
            have hstep : Attends size own now (now.onward next (now.listener.after [first])
                (now.listener.hear [first]).1) := .turn hlistening turn hfirst
            rw [happend] at hheard ⊢
            obtain ⟨left, hbecomes, hended, hnext⟩ :=
              ih (now.onward next (now.listener.after [first]) (now.listener.hear [first]).1)
                rfl hlistening hheard hmore
            rw [onward_onward] at hbecomes
            exact ⟨left, .head hstep hbecomes, hended, hnext⟩

/-- How a command that was listened to ended. -/
structure EndsAs (last : Attendance) (departure : Departure) (running : Bool) (status : Int)
    (pieces : List (Pipe × List Char)) : Prop where
  progress : last.progress = .finished departure running
  pieces : last.pieces = pieces
  killed : last.killed = running
  status : last.status = some status

/-- A listening can stop for any reason that it has, before the process exits or after that; and the kill
may come too late. -/
theorem exists_endsAs (own : Int) (now : Attendance) {departure : Departure}
    (hlistening : now.progress = .listening) (hstatus : now.status = none) (hkilled : now.killed = false)
    (hdeparts : now.Departs size departure) (running hit : Bool) :
    ∃ last, BecomesOf size own now last ∧
      last.EndsAs departure running (if running && hit then killedStatus else own) now.pieces := by
  have hstop : Attends size own now (now.stop departure) := .stop hlistening hdeparts
  have hasked : (now.stop departure).progress = .stopped departure true := by
    rw [stop, hstatus]
    rfl
  match running, hit with
  | false, _ =>
      let exited : Attendance := { now with status := some own }
      have hexit : Attends size own now exited := .exit hstatus
      have hexited : exited.Departs size departure := by
        cases hdeparts with
        | ended h => exact .ended h
        | failed turn h => exact .failed turn h
        | left => exact .left
      have hstop' : Attends size own exited (exited.stop departure) := .stop hlistening hexited
      have hspare : Attends size own _ ((exited.stop departure).close departure false) := .spare rfl
      exact ⟨_, .tail (.tail (.single hexit) hstop') hspare, rfl, rfl, hkilled, rfl⟩
  | true, true =>
      have hkill : Attends size own _ ((now.stop departure).kill.close departure true) := .kill hasked
      refine ⟨_, .tail (.single hstop) hkill, rfl, rfl, rfl, ?_⟩
      simp [close, kill, stop, hstatus]
  | true, false =>
      let exited : Attendance := { now.stop departure with status := some own }
      have hexit : Attends size own (now.stop departure) exited := .exit hstatus
      have hkill : Attends size own exited (exited.kill.close departure true) := .kill hasked
      exact ⟨_, .tail (.tail (.single hstop) hexit) hkill, rfl, rfl, rfl, rfl⟩

/-- However the pipes are read to their ends, the process may still run then or not. -/
theorem exists_ended (own : Int) {reads : List (Pipe × List Nat)}
    (h : Listens size (.holding written) reads) (hheard : (Listener.initial.hear reads).2 = none)
    (running hit : Bool) :
    ∃ last, BecomesOf size own (start written) last ∧
      last.EndsAs .ended running (if running && hit then killedStatus else own)
        (Listener.initial.hear reads).1 := by
  rw [← List.append_nil reads] at h
  obtain ⟨left, hbecomes, hended, -⟩ := exists_onward own (start written) h rfl rfl hheard
  obtain ⟨last, hlast, hends⟩ := exists_endsAs own ((start written).onward left _ _) rfl rfl rfl
    (.ended (hended rfl)) running hit
  exact ⟨last, hbecomes.trans hlast, hends⟩

end Attendance

/-! ## Programs with pipes that are always ready -/

namespace Program

open Attendance

variable (program : Program) {size : Nat}

/-- Listening to the end of both pipes, or to the first failure, is one way to attend a program. -/
theorem exists_hear (hsize : 0 < size) : ∃ last,
    BecomesOf size program.status (start program.written) last ∧
      last.EndsAs ((program.hear size).fault.elim .ended .failed) (program.hear size).killed
        program.status (Listener.initial.hear (program.reads size)).1 := by
  have hlistens := program.listens_reads hsize
  cases hfault : (program.hear size).fault with
  | none =>
      obtain ⟨last, hlast, hends⟩ :=
        exists_ended program.status hlistens hfault program.running false
      rw [Bool.and_false, if_neg Bool.false_ne_true] at hends
      exact ⟨last, hlast, hends⟩
  | some fault =>
      obtain ⟨heard, read, rest, hreads, hheard, hpieces, hfails⟩ := Listener.exists_failing hfault
      rw [hreads] at hlistens
      obtain ⟨left, hbecomes, -, hnext⟩ :=
        exists_onward program.status (start program.written) hlistens rfl rfl hheard
      obtain ⟨next, hturn⟩ := hnext read rest rfl
      obtain ⟨last, hlast, hends⟩ := exists_endsAs program.status
        ((start program.written).onward left _ _) rfl rfl rfl (.failed hturn hfails) program.running false
      rw [Bool.and_false, if_neg Bool.false_ne_true] at hends
      exact ⟨last, hbecomes.trans hlast, hends.progress, hends.pieces.trans hpieces, hends.killed,
        hends.status⟩

/-- Another one is to leave when some pieces have been heard. -/
theorem exists_hearSome (hsize : 0 < size) {limit : Nat} (hlimit : 0 < limit)
    (hlength : limit ≤ (program.hear size).texts.length) : ∃ last,
    BecomesOf size program.status (start program.written) last ∧
      last.EndsAs .left (program.hearSome size limit).killed program.status
        ((Listener.initial.hear (program.reads size)).1.take limit) := by
  have hsome : program.hearSome size limit
      = ⟨(program.hear size).texts.take limit, none, program.running⟩ := by
    rw [hearSome, if_neg (Nat.pos_iff_ne_zero.mp hlimit), if_pos hlength]
  have hlistens := program.listens_reads hsize
  rw [hear, List.length_map] at hlength
  obtain ⟨heard, rest, hreads, hheard, hpieces⟩ := Listener.exists_hear_eq_take hlength
  rw [hreads] at hlistens
  obtain ⟨left, hbecomes, -, -⟩ :=
    exists_onward program.status (start program.written) hlistens rfl rfl hheard
  have hleaves (now : Attendance) : now.Departs size .left := .left
  obtain ⟨last, hlast, hends⟩ := exists_endsAs program.status
    ((start program.written).onward left _ _) rfl rfl rfl (hleaves _) program.running false
  rw [Bool.and_false, if_neg Bool.false_ne_true] at hends
  rw [hsome]
  exact ⟨last, hbecomes.trans hlast, hends.progress, hends.pieces.trans hpieces, hends.killed,
    hends.status⟩

end Program

/-! ## Which commands are killed -/

/-- A command that has exited breaks off exactly if its status is negative. -/
theorem Session.halt_mem_ending_iff {session : Session} {command : Text} {status : Int} {halt : Halt} :
    .halt halt ∈ session.ending command (.exited status) ↔
      status < 0 ∧ halt = .failed (.command (.terminated command status.natAbs)) := by
  simp only [ending]
  by_cases hsignal : status < 0
  · simp [hsignal]
  · by_cases hzero : status = 0 <;> simp [hsignal, hzero]

namespace Attendance

/-- What holds of a command when the listening to it is over. -/
structure Dismissed (size : Nat) (own : Int) (written : Pipe → List Nat) (departure : Departure)
    (last : Attendance) : Prop where
  /-- The listening has stopped at some point, for a reason that it had there, and the process was killed
  exactly if it still ran then, whatever the reason. -/
  killed : ∃ now, BecomesOf size own (start written) now ∧ now.progress = .listening ∧
    now.Departs size departure ∧ BecomesOf size own (now.stop departure) last ∧
    (last.killed = true ↔ now.status = none)
  closed : ∀ pipe, last.isOpen pipe = false
  /-- A process that was not killed has exited with its own status. -/
  status : ∃ status, last.status = some status ∧
    (status = own ∨ status = killedStatus ∧ last.killed = true)
  /-- So a command whose own status is not negative breaks off exactly if the kill ended its process. -/
  breaks : 0 ≤ own → ∀ status, last.status = some status → ∀ (session : Session) command halt,
    .halt halt ∈ session.ending command (.exited status) ↔
      (last.killed = true ∧ status = killedStatus) ∧ halt = .failed (.command (.terminated command 9))

theorem dismissed_of_becomes {size : Nat} {own : Int} {written : Pipe → List Nat} {last : Attendance}
    {departure : Departure} {running : Bool} (hlast : BecomesOf size own (start written) last)
    (hprogress : last.progress = .finished departure running) :
    last.Dismissed size own written departure := by
  have hregular := regular_of_becomes hlast
  rw [Regular, hprogress] at hregular
  obtain ⟨hkilled, hclosed, hstatus⟩ := hregular
  constructor
  case killed =>
    obtain ⟨now, hnow, hlistening, hdeparts, hafter, hrunning⟩ :=
      exists_stop hlast (by rw [hprogress]; rfl)
    refine ⟨now, hnow, hlistening, hdeparts, hafter, ?_⟩
    rw [hkilled, hrunning, Option.isNone_iff_eq_none]
  case closed => exact hclosed
  case status =>
    obtain hown | ⟨hsignal, hrunning⟩ := hstatus
    · exact ⟨own, hown, .inl rfl⟩
    · exact ⟨killedStatus, hsignal, .inr ⟨rfl, hkilled.trans hrunning⟩⟩
  case breaks =>
    intro hown status hlaststatus session command halt
    rw [hlaststatus, Option.some.injEq, Option.some.injEq] at hstatus
    rw [Session.halt_mem_ending_iff]
    rcases hstatus with rfl | ⟨rfl, hrunning⟩
    · have hnot : status ≠ killedStatus := by
        rw [killedStatus]
        omega
      exact iff_of_false (fun h => absurd h.1 (Int.not_lt.mpr hown)) fun h => hnot h.1.2
    · exact and_congr_left' (iff_of_true (by decide) ⟨hkilled.trans hrunning, rfl⟩)

end Attendance

open Attendance

/-- What becomes of a program that is listened to with reads of at most the given size. -/
structure Program.Attended (program : Program) (size : Nat) : Prop where
  /-- Whatever happens, it is killed exactly if it still runs when the listening stops. -/
  dismissed : ∀ last departure running, BecomesOf size program.status (start program.written) last →
    last.progress = .finished departure running →
    last.Dismissed size program.status program.written departure
  /-- However the pipes are read to their ends, the process may have exited by then or not; if not, the
  kill may end it, or come too late. -/
  ended : ∀ reads, Listens size (.holding program.written) reads →
    (Listener.initial.hear reads).2 = none → ∀ running hit, ∃ last,
      BecomesOf size program.status (start program.written) last ∧
        last.EndsAs .ended running (if running && hit then killedStatus else program.status)
          (Listener.initial.hear reads).1
  /-- What is heard of pipes that are always ready is heard in this way. -/
  hear : ∃ last departure, BecomesOf size program.status (start program.written) last ∧
    last.EndsAs departure (program.hear size).killed program.status last.pieces ∧
    last.pieces.map Prod.snd = (program.hear size).texts ∧
    departure = (program.hear size).fault.elim .ended .failed
  hearSome : ∀ limit, 0 < limit → limit ≤ (program.hear size).texts.length → ∃ last,
    BecomesOf size program.status (start program.written) last ∧
      last.EndsAs .left (program.hearSome size limit).killed program.status last.pieces ∧
      last.pieces.map Prod.snd = (program.hearSome size limit).texts

/-- A process is killed exactly if it still runs when the listening stops, also if it stops because both
pipes have ended. -/
theorem Program.attended (program : Program) {size : Nat} (hsize : 0 < size) :
    program.Attended size where
  dismissed _ _ _ hlast hprogress := dismissed_of_becomes hlast hprogress
  ended _ hreads hheard running hit := exists_ended _ hreads hheard running hit
  hear := by
    obtain ⟨last, hlast, hends⟩ := program.exists_hear hsize
    refine ⟨last, _, hlast, ⟨hends.progress, rfl, hends.killed, hends.status⟩, ?_, rfl⟩
    rw [hends.pieces]
    rfl
  hearSome limit hlimit hlength := by
    obtain ⟨last, hlast, hends⟩ := program.exists_hearSome hsize hlimit hlength
    refine ⟨last, hlast, ⟨hends.progress, rfl, hends.killed, hends.status⟩, ?_⟩
    rw [hends.pieces, List.map_take, Program.hearSome, if_neg (Nat.pos_iff_ne_zero.mp hlimit),
      if_pos hlength]
    rfl

/-- The bold letter is listened to byte by byte, and nothing is left to kill. -/
theorem Program.attended_boldLetter :
    0 < 1 ∧ boldLetter.Attended 1 ∧
      ∃ last departure, BecomesOf 1 boldLetter.status (start boldLetter.written) last ∧
        last.progress = .finished departure false ∧ last.killed = false := by
  have hattended : boldLetter.Attended 1 := boldLetter.attended Nat.one_pos
  obtain ⟨last, departure, hlast, hends, -⟩ := hattended.hear
  exact ⟨Nat.one_pos, hattended, last, departure, hlast, hends.progress, hends.killed⟩

/-- A program that writes a letter and ends its output, but takes its time to exit. -/
def lingering : Program where
  output := [0x61]
  errors := []
  status := 0
  running := true

/-- The whole output of the program is heard without a failure, and nobody interrupts.  Yet its process is
killed, so that the command breaks off, though the program means to exit with status zero. -/
theorem killed_lingering :
    lingering.hear 1024 = ⟨[['a']], none, true⟩ ∧ lingering.status = 0 ∧
      ∃ last, BecomesOf 1024 lingering.status (start lingering.written) last ∧
        last.EndsAs .ended true killedStatus [(.output, ['a'])] ∧
        .halt (.failed (.command (.terminated "sleep" 9)))
          ∈ Session.empty.ending "sleep" (.exited killedStatus) := by
  have hreads : lingering.reads 1024 = [(.output, [0x61])] := by
    simp [Program.reads, Program.cut, Program.cutAfter, lingering, Program.inTurns]
  have hheard : Listener.initial.hear [(.output, [0x61])] = ([(.output, ['a'])], none) := by decide
  have hlistens : Listens 1024 (.holding lingering.written) (lingering.reads 1024) :=
    lingering.listens_reads (by decide)
  rw [hreads] at hlistens
  obtain ⟨last, hlast, hends⟩ :=
    exists_ended lingering.status hlistens (congrArg Prod.snd hheard) true true
  rw [hheard] at hends
  refine ⟨?_, rfl, last, hlast, hends, Session.halt_mem_ending_iff.mpr ⟨by decide, rfl⟩⟩
  rw [Program.hear, hreads, hheard]
  rfl

end Screencast
