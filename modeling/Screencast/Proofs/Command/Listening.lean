import Mathlib.Data.List.Basic
import Mathlib.Logic.Function.Basic
import Mathlib.Order.WellFounded
import Screencast.Command.Program
import Screencast.Proofs.Terminal.Cutting

/-!
# Listening to two pipes

The pipes of a command are read in whatever order and portions they happen to be ready.  `Turn` is one
turn of listening: some bytes of a pipe are read, or its end.  Turns cannot go on for ever, and as long as
a pipe has not ended there is another one; `listens_iff` says that the sequences of reads that come about
in this way are exactly those that cut the bytes of both pipes into portions.

`undivided_of_apart` says that the text heard from a pipe does not depend on any of this.
-/

namespace Screencast

/-- What comes from a pipe, put together. -/
def fromPipe {α : Type} (pipe : Pipe) (parts : List (Pipe × List α)) : List α :=
  (parts.filter fun part => part.1 = pipe).flatMap Prod.snd

@[simp] theorem fromPipe_nil {α : Type} (pipe : Pipe) : fromPipe pipe ([] : List (Pipe × List α)) = [] :=
  rfl

@[simp] theorem fromPipe_append {α : Type} (pipe : Pipe) (parts more : List (Pipe × List α)) :
    fromPipe pipe (parts ++ more) = fromPipe pipe parts ++ fromPipe pipe more := by
  simp [fromPipe]

theorem fromPipe_cons {α : Type} (pipe from' : Pipe) (part : List α) (rest : List (Pipe × List α)) :
    fromPipe pipe ((from', part) :: rest)
      = (if from' = pipe then part else []) ++ fromPipe pipe rest := by
  by_cases h : from' = pipe <;> simp [fromPipe, h]

/-! ## Turns -/

/-- What pipes still hold: the bytes that were not read yet, or nothing at all once the end has been
read. -/
abbrev Pipes := Pipe → Option (List Nat)

/-- The pipes of a command that has written these bytes. -/
def Pipes.holding (written : Pipe → List Nat) : Pipes := fun pipe => some (written pipe)

/-- One turn of listening with reads of at most the given size, and what is read in it: bytes of a pipe
that has some, or the end of a pipe, which is not listened to any longer. -/
inductive Turn (size : Nat) : Pipes → List (Pipe × List Nat) → Pipes → Prop
  | read {pipes : Pipes} (pipe : Pipe) {bytes rest : List Nat} (left : pipes pipe = some (bytes ++ rest))
      (some : bytes ≠ []) (few : bytes.length ≤ size) :
      Turn size pipes [(pipe, bytes)] (Function.update pipes pipe (.some rest))
  | close {pipes : Pipes} (pipe : Pipe) (left : pipes pipe = some []) :
      Turn size pipes [] (Function.update pipes pipe none)

/-- The reads of listening until both pipes have ended. -/
inductive Listens (size : Nat) : Pipes → List (Pipe × List Nat) → Prop
  | ended {pipes : Pipes} (h : ∀ pipe, pipes pipe = none) : Listens size pipes []
  | turn {pipes next : Pipes} {reads more : List (Pipe × List Nat)} (now : Turn size pipes reads next)
      (later : Listens size next more) : Listens size pipes (reads ++ more)

namespace Pipes

/-- How many turns a pipe allows for at most. -/
def turnsLeft (left : Option (List Nat)) : Nat :=
  left.elim 0 fun bytes => bytes.length + 1

theorem turnsLeft_lt_of_turn {size : Nat} {pipes next : Pipes} {reads : List (Pipe × List Nat)}
    (h : Turn size pipes reads next) :
    turnsLeft (next .output) + turnsLeft (next .errors)
      < turnsLeft (pipes .output) + turnsLeft (pipes .errors) := by
  cases h with
  | @read pipe bytes rest left nonempty few =>
      have hpositive : 0 < bytes.length := List.length_pos_iff.mpr nonempty
      cases pipe <;> simp [left, turnsLeft] <;> omega
  | close pipe left =>
      cases pipe <;> simp [left, turnsLeft]

end Pipes

/-- Turns cannot go on for ever. -/
theorem wellFounded_turn (size : Nat) :
    WellFounded fun next pipes : Pipes => ∃ reads, Turn size pipes reads next := by
  apply Subrelation.wf _ (measure fun pipes : Pipes =>
    Pipes.turnsLeft (pipes .output) + Pipes.turnsLeft (pipes .errors)).wf
  rintro next pipes ⟨reads, hturn⟩
  exact Pipes.turnsLeft_lt_of_turn hturn

/-- As long as a pipe has not ended, there is another turn. -/
theorem exists_turn {size : Nat} (hsize : 0 < size) {pipes : Pipes} {pipe : Pipe}
    (h : pipes pipe ≠ none) : ∃ reads next, Turn size pipes reads next := by
  obtain ⟨left, hleft⟩ := Option.ne_none_iff_exists'.mp h
  cases left with
  | nil => exact ⟨_, _, .close pipe hleft⟩
  | cons byte rest =>
      -- a read of one byte will do
      have hone : pipes pipe = some ([byte] ++ rest) := hleft
      exact ⟨_, _, .read pipe hone (by simp) hsize⟩

theorem Turn.left_eq {size : Nat} {pipes next : Pipes} {reads : List (Pipe × List Nat)}
    (h : Turn size pipes reads next) (pipe : Pipe) :
    (pipes pipe).getD [] = fromPipe pipe reads ++ (next pipe).getD [] := by
  cases h with
  | @read from' bytes rest left nonempty few =>
      rw [fromPipe_cons, fromPipe_nil, List.append_nil]
      by_cases hpipe : pipe = from'
      · subst hpipe
        simp [left]
      · rw [if_neg (Ne.symm hpipe), Function.update_of_ne hpipe, List.nil_append]
  | close from' left =>
      rw [fromPipe_nil, List.nil_append]
      by_cases hpipe : pipe = from'
      · subst hpipe
        simp [left]
      · rw [Function.update_of_ne hpipe]

/-- Reads that do not return nothing, and not more bytes than they may. -/
def Portions (size : Nat) (reads : List (Pipe × List Nat)) : Prop :=
  ∀ read ∈ reads, read.2 ≠ [] ∧ read.2.length ≤ size

theorem Turn.portions {size : Nat} {pipes next : Pipes} {reads : List (Pipe × List Nat)}
    (h : Turn size pipes reads next) : Portions size reads := by
  cases h with
  | read pipe left nonempty few => exact List.forall_mem_singleton.mpr ⟨nonempty, few⟩
  | close pipe left => exact List.forall_mem_nil _

theorem Listens.left_eq {size : Nat} {pipes : Pipes} {reads : List (Pipe × List Nat)}
    (h : Listens size pipes reads) (pipe : Pipe) : fromPipe pipe reads = (pipes pipe).getD [] := by
  induction h with
  | ended hnone => rw [hnone, Option.getD_none, fromPipe_nil]
  | turn now later ih => rw [fromPipe_append, ih, now.left_eq]

theorem Listens.portions {size : Nat} {pipes : Pipes} {reads : List (Pipe × List Nat)}
    (h : Listens size pipes reads) : Portions size reads := by
  induction h with
  | ended hnone => exact List.forall_mem_nil _
  | turn now later ih => exact List.forall_mem_append.mpr ⟨now.portions, ih⟩

/-- The ways to listen to pipes are the ways to cut what they hold into portions, in any order of the
pipes. -/
theorem listens_iff {size : Nat} {written : Pipe → List Nat} {reads : List (Pipe × List Nat)} :
    Listens size (Pipes.holding written) reads ↔
      (∀ pipe, fromPipe pipe reads = written pipe) ∧ Portions size reads := by
  constructor
  · intro h
    exact ⟨h.left_eq, h.portions⟩
  · rintro ⟨hwritten, hportions⟩
    induction reads generalizing written with
    | nil =>
        -- both pipes are at their ends, and these are read one after the other
        have hempty (pipe : Pipe) : Pipes.holding written pipe = some [] := by
          rw [Pipes.holding, ← hwritten pipe, fromPipe_nil]
        refine .turn (.close .output (hempty .output)) (.turn (.close .errors ?_) (.ended ?_))
        · rw [Function.update_of_ne (by decide), hempty]
        · intro pipe
          cases pipe <;> simp
    | cons read rest ih =>
        obtain ⟨pipe, bytes⟩ := read
        obtain ⟨⟨hnonempty, hfew⟩, hrest⟩ := List.forall_mem_cons.mp hportions
        have hleft : Pipes.holding written pipe = some (bytes ++ fromPipe pipe rest) := by
          rw [Pipes.holding, ← hwritten pipe, fromPipe_cons, if_pos rfl]
        have hnext : Function.update (Pipes.holding written) pipe (some (fromPipe pipe rest))
            = Pipes.holding fun pipe => fromPipe pipe rest := by
          funext other
          by_cases hother : other = pipe
          · rw [hother, Function.update_self, Pipes.holding]
          · rw [Function.update_of_ne hother, Pipes.holding, Pipes.holding, ← hwritten other,
              fromPipe_cons, if_neg (Ne.symm hother), List.nil_append]
        refine .turn (.read pipe hleft hnonempty hfew) ?_
        rw [hnext]
        exact ih (fun _ => rfl) hrest

/-! ## What is heard -/

namespace Listener

theorem stream_setStream (listener : Listener) (stream : Terminal.Stream) (pipe other : Pipe) :
    (listener.setStream stream pipe).stream other
      = if other = pipe then stream else listener.stream other := by
  cases pipe <;> cases other <;> rfl

/-- The piece that a read gives, if it gives any. -/
def piece (pipe : Pipe) (text : List Char) : List (Pipe × List Char) :=
  if text.isEmpty then [] else [(pipe, text)]

theorem fromPipe_piece (pipe from' : Pipe) (text : List Char) :
    fromPipe pipe (piece from' text) = if from' = pipe then text else [] := by
  cases text with
  | nil => simp [piece]
  | cons c rest => simp [piece, fromPipe_cons]

theorem hear_cons_of_none {listener : Listener} {pipe : Pipe} {bytes : List Nat}
    (h : ((listener.stream pipe).feed bytes).fault = none) (rest : List (Pipe × List Nat)) :
    listener.hear ((pipe, bytes) :: rest)
      = (piece pipe ((listener.stream pipe).feed bytes).text
            ++ ((listener.setStream ((listener.stream pipe).feed bytes).stream pipe).hear rest).1,
          ((listener.setStream ((listener.stream pipe).feed bytes).stream pipe).hear rest).2) := by
  simp only [hear, h, piece]
  split <;> rfl

theorem hear_cons_of_some {listener : Listener} {pipe : Pipe} {bytes : List Nat}
    {fault : Terminal.Fault} (h : ((listener.stream pipe).feed bytes).fault = some fault)
    (rest : List (Pipe × List Nat)) :
    listener.hear ((pipe, bytes) :: rest) = ([], some fault) := by
  simp only [hear, h]

/-- The pieces are texts that reading a stream gives. -/
theorem forall_mem_hear {P : List Char → Prop}
    (h : ∀ (stream : Terminal.Stream) (bytes : List Nat), (stream.feed bytes).text ≠ [] →
      P (stream.feed bytes).text)
    (listener : Listener) (reads : List (Pipe × List Nat)) :
    ∀ piece ∈ (listener.hear reads).1, P piece.2 := by
  induction reads generalizing listener with
  | nil => exact List.forall_mem_nil _
  | cons read rest ih =>
      obtain ⟨pipe, bytes⟩ := read
      cases hfault : ((listener.stream pipe).feed bytes).fault with
      | some fault =>
          rw [hear_cons_of_some hfault]
          exact List.forall_mem_nil _
      | none =>
          rw [hear_cons_of_none hfault]
          refine List.forall_mem_append.mpr ⟨?_, ih _⟩
          intro heard hheard
          simp only [piece] at hheard
          split at hheard
          · cases hheard
          · next htext =>
            obtain rfl := List.mem_singleton.mp hheard
            exact h _ _ (by simpa using htext)

/-- No piece is empty. -/
theorem ne_nil_of_mem_hear (listener : Listener) (reads : List (Pipe × List Nat)) :
    ∀ piece ∈ (listener.hear reads).1, piece.2 ≠ [] :=
  forall_mem_hear (P := fun text => text ≠ []) (fun _ _ h => h) listener reads

/-- If the bytes of each pipe can be read as a whole and choose no charset, they are heard as they would
be as a whole. -/
theorem hear_of_keepsDecoding (listener : Listener) (reads : List (Pipe × List Nat))
    (hkeeps : ∀ pipe, (listener.stream pipe).KeepsDecoding (fromPipe pipe reads))
    (hfault : ∀ pipe, ((listener.stream pipe).feed (fromPipe pipe reads)).fault = none) :
    (listener.hear reads).2 = none ∧ ∀ pipe,
      fromPipe pipe (listener.hear reads).1
        = ((listener.stream pipe).feed (fromPipe pipe reads)).text := by
  induction reads generalizing listener with
  | nil =>
      refine ⟨rfl, fun pipe => ?_⟩
      rw [fromPipe_nil, Terminal.Stream.feed_eq (hkeeps pipe).utf8]
      rfl
  | cons read rest ih =>
      obtain ⟨pipe, bytes⟩ := read
      have hbytes : fromPipe pipe ((pipe, bytes) :: rest) = bytes ++ fromPipe pipe rest := by
        rw [fromPipe_cons, if_pos rfl]
      have hothers {other : Pipe} (h : other ≠ pipe) :
          fromPipe other ((pipe, bytes) :: rest) = fromPipe other rest := by
        rw [fromPipe_cons, if_neg h.symm, List.nil_append]
      -- the bytes of this pipe are this read and what follows; the other pipe is as it was
      have hpipe := hkeeps pipe
      have hwhole := hfault pipe
      rw [hbytes] at hpipe hwhole
      obtain ⟨hnow, hnext, happend⟩ := Terminal.Stream.feed_append hpipe hwhole
      rw [happend] at hwhole
      obtain ⟨-, hlater⟩ := Terminal.Reading.fault_andThen.mp hwhole
      obtain ⟨hrest, htexts⟩ := ih
        (listener.setStream ((listener.stream pipe).feed bytes).stream pipe)
        (fun other => by
          rw [stream_setStream]
          by_cases h : other = pipe
          · rw [if_pos h, h]
            exact hnext
          · rw [if_neg h, ← hothers h]
            exact hkeeps other)
        (fun other => by
          rw [stream_setStream]
          by_cases h : other = pipe
          · rw [if_pos h, h]
            exact hlater
          · rw [if_neg h, ← hothers h]
            exact hfault other)
      rw [hear_cons_of_none hnow]
      refine ⟨hrest, fun other => ?_⟩
      simp only [fromPipe_append, fromPipe_piece, htexts, stream_setStream]
      by_cases h : other = pipe
      · subst h
        rw [if_pos rfl, if_pos rfl, hbytes, happend, Terminal.Reading.andThen_of_none hnow]
      · rw [if_neg (Ne.symm h), if_neg h, hothers h, List.nil_append]

end Listener

/-! ## Pipes that are always ready -/

namespace Program

/-- The bytes that a program writes to its pipes. -/
def written (program : Program) : Pipe → List Nat
  | .output => program.output
  | .errors => program.errors

theorem flatten_cutAfter (more : Nat) (bytes : List Nat) : (cutAfter more bytes).flatten = bytes := by
  fun_induction cutAfter more bytes with
  | case1 => rfl
  | case2 byte rest ih => rw [List.flatten_cons, ih, List.cons_append, List.take_append_drop]

theorem portions_cutAfter (more : Nat) (bytes : List Nat) :
    ∀ read ∈ cutAfter more bytes, read ≠ [] ∧ read.length ≤ more + 1 := by
  fun_induction cutAfter more bytes with
  | case1 => exact List.forall_mem_nil _
  | case2 byte rest ih =>
      refine List.forall_mem_cons.mpr ⟨⟨nofun, ?_⟩, ih⟩
      rw [List.length_cons, List.length_take]
      omega

theorem fromPipe_map (pipe from' : Pipe) (reads : List (List Nat)) :
    fromPipe pipe (reads.map fun read => (from', read)) = if from' = pipe then reads.flatten else [] := by
  induction reads with
  | nil => simp
  | cons read rest ih =>
      rw [List.map_cons, fromPipe_cons, ih]
      split_ifs <;> simp

theorem fromPipe_inTurns (pipe : Pipe) (output errors : List (List Nat)) :
    fromPipe pipe (inTurns output errors)
      = match pipe with
        | .output => output.flatten
        | .errors => errors.flatten := by
  fun_induction inTurns output errors with
  | case1 errors => cases pipe <;> simp [fromPipe_map]
  | case2 output => cases pipe <;> simp [fromPipe_map]
  | case3 read output other errors ih =>
      rw [fromPipe_cons, fromPipe_cons, ih]
      cases pipe <;> simp

theorem mem_inTurns {read : Pipe × List Nat} {output errors : List (List Nat)}
    (h : read ∈ inTurns output errors) : read.2 ∈ output ∨ read.2 ∈ errors := by
  fun_induction inTurns output errors with
  | case1 errors =>
      obtain ⟨bytes, hbytes, rfl⟩ := List.mem_map.mp h
      exact .inr hbytes
  | case2 output =>
      obtain ⟨bytes, hbytes, rfl⟩ := List.mem_map.mp h
      exact .inl hbytes
  | case3 first output second errors ih =>
      rcases List.mem_cons.mp h with rfl | h
      · exact .inl (List.mem_cons_self ..)
      · rcases List.mem_cons.mp h with rfl | h
        · exact .inr (List.mem_cons_self ..)
        · exact (ih h).imp (List.mem_cons_of_mem _) (List.mem_cons_of_mem _)

/-- Reading pipes that are always ready is one way to listen to them. -/
theorem listens_reads (program : Program) {size : Nat} (hsize : 0 < size) :
    Listens size (Pipes.holding program.written) (program.reads size) := by
  obtain ⟨more, rfl⟩ : ∃ more, size = more + 1 := ⟨size - 1, by omega⟩
  refine listens_iff.mpr ⟨?_, ?_⟩
  · intro pipe
    rw [reads, fromPipe_inTurns]
    cases pipe <;> exact flatten_cutAfter more _
  · intro read hread
    rcases mem_inTurns hread with hread | hread <;> exact portions_cutAfter more _ _ hread

end Program

/-! ## The text of an output -/

/-- What it means that the text of a command's output does not depend on how its pipes are read. -/
structure Undivided (size : Nat) (written : Pipe → List Nat) : Prop where
  /-- Listening does not go on for ever. -/
  ends : WellFounded fun next pipes : Pipes => ∃ reads, Turn size pipes reads next
  /-- It does not stop before both pipes have ended. -/
  goesOn : ∀ pipes : Pipes, (∃ pipe, pipes pipe ≠ none) → ∃ reads next, Turn size pipes reads next
  /-- However the pipes are read, nothing fails, no piece of output is empty, and the pieces that come
  from a pipe are the text of its bytes as a whole. -/
  heard : ∀ reads, Listens size (Pipes.holding written) reads →
    (Listener.initial.hear reads).2 = none ∧
      (∀ piece ∈ (Listener.initial.hear reads).1, piece.2 ≠ []) ∧
      ∀ pipe, fromPipe pipe (Listener.initial.hear reads).1
        = (Terminal.Stream.initial.feed (written pipe)).text

/-- The text of an output does not depend on how it is read, if the bytes of each pipe can be read as a
whole and hold no escape that is followed by a percent sign. -/
theorem undivided_of_apart {written : Pipe → List Nat}
    (hcharset : ∀ pipe, Apart 0x1b 0x25 (written pipe))
    (hfault : ∀ pipe, (Terminal.Stream.initial.feed (written pipe)).fault = none) {size : Nat}
    (hsize : 0 < size) : Undivided size written where
  ends := wellFounded_turn size
  goesOn pipes := by
    rintro ⟨pipe, hpipe⟩
    exact exists_turn hsize hpipe
  heard reads hreads := by
    have hbytes := (listens_iff.mp hreads).1
    have hstream (pipe : Pipe) : Listener.initial.stream pipe = Terminal.Stream.initial := by
      cases pipe <;> rfl
    obtain ⟨hnone, htexts⟩ := Listener.hear_of_keepsDecoding Listener.initial reads
      (fun pipe => by
        rw [hstream, hbytes]
        exact Terminal.Stream.keepsDecoding_initial (hcharset pipe))
      (fun pipe => by
        rw [hstream, hbytes]
        exact hfault pipe)
    refine ⟨hnone, Listener.ne_nil_of_mem_hear _ reads, fun pipe => ?_⟩
    rw [htexts, hstream, hbytes]

/-- A program that writes a letter of two bytes in bold, and an error. -/
def boldLetter : Program where
  output := [0x1b, 0x5b, 0x31, 0x6d, 0xc3, 0xa9]
  errors := [0x21, 0x0a]
  status := 0
  running := false

/-- Read byte by byte, the program is heard as if it were read at once. -/
theorem undivided_boldLetter :
    (Listener.initial.hear (boldLetter.reads 1)).2 = none ∧
      fromPipe .output (Listener.initial.hear (boldLetter.reads 1)).1 = ['é'] ∧
      fromPipe .errors (Listener.initial.hear (boldLetter.reads 1)).1 = ['!', '\n'] := by
  have hcharset (pipe : Pipe) : Apart 0x1b 0x25 (boldLetter.written pipe) := by
    cases pipe <;> decide
  have hfault (pipe : Pipe) :
      (Terminal.Stream.initial.feed (boldLetter.written pipe)).fault = none := by
    cases pipe <;> decide
  obtain ⟨hnone, -, htexts⟩ := (undivided_of_apart hcharset hfault Nat.one_pos).heard _
    (boldLetter.listens_reads Nat.one_pos)
  exact ⟨hnone, (htexts .output).trans (by decide), (htexts .errors).trans (by decide)⟩

end Screencast
