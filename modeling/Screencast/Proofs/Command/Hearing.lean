import Screencast.Proofs.Command.Listening
import Screencast.Proofs.Terminal.Refusal

/-!
# What is heard of an output

Whatever a command writes and however it is read, line feeds and tabs are the only characters that
control a terminal in what is heard: `lineFeed_or_tab_of_isSpecial`.

An output is heard as its plain text, but not always to its end.  The first read that holds a refused
sequence ends the listening, and the text of this read is lost, the part before the sequence too:
`heard_upToRefused`.
-/

namespace Screencast

namespace Terminal.Stream

variable (stream : Stream) (bytes : List Nat)

/-- The stream when it has decoded bytes but not read their characters. -/
def decoding : Stream := { stream with decoder := (stream.decode bytes).1 }

/-- One of the characters that bytes stand for is refused when those before it have been read. -/
def RefusesWithin : Prop :=
  ∃ before c after, (stream.decode bytes).2 = before ++ c :: after ∧
    ((stream.decoding bytes).run before).fault = none ∧
    ((stream.decoding bytes).run before).stream.Refuses c

theorem fault_feed_iff : (stream.feed bytes).fault ≠ none ↔ stream.RefusesWithin bytes :=
  (stream.decoding bytes).fault_run_iff

/-- What a read gives is a part of the plain text of its characters. -/
theorem feed_plain_prefix :
    (stream.feed bytes).text <+: plainText stream.state.phase (stream.decode bytes).2 :=
  ((stream.decoding bytes).run_plain (stream.decode bytes).2).1

theorem feed_plain (h : (stream.feed bytes).fault = none) :
    (stream.feed bytes).text = plainText stream.state.phase (stream.decode bytes).2 ∧
      (stream.feed bytes).stream.state.phase
        = (stream.decode bytes).2.foldl (fun phase c => phase.next c) stream.state.phase :=
  ((stream.decoding bytes).run_plain (stream.decode bytes).2).2 h

end Terminal.Stream

namespace Listener

/-- Of the characters that control a terminal only line feeds and tabs are heard. -/
theorem lineFeed_or_tab_of_isSpecial (listener : Listener) (reads : List (Pipe × List Nat)) :
    ∀ piece ∈ (listener.hear reads).1, ∀ c ∈ piece.2, Terminal.isSpecial c = true →
      c = '\n' ∨ c = '\t' := by
  apply forall_mem_hear (P := fun text => ∀ c ∈ text, Terminal.isSpecial c = true →
    c = '\n' ∨ c = '\t')
  intro stream bytes _ c hc hspecial
  have hplain := (stream.feed_plain_prefix bytes).subset hc
  exact Terminal.plainText_of_isSpecial hplain hspecial

/-- Reads of bytes that are taken one by one: a tab inside a control sequence, a bell in the other pipe,
and a character that cancels the sequence before another one begins. -/
def switching : List (Pipe × List Nat) :=
  [(.output, [0x1b, 0x25, 0x40]), (.output, [0x9b, 0x31, 0x09]), (.errors, [0x07, 0x41]),
    (.output, [0x18, 0x9b, 0x0a])]

theorem lineFeed_or_tab_of_switching :
    (initial.hear switching).1
        = [(.output, ['\t']), (.errors, ['A']), (.output, [Char.ofNat 0x18, '\n'])] ∧
      Terminal.isSpecial '\n' = true ∧ ('\n' = '\n' ∨ '\n' = '\t') := by
  have hheard : (initial.hear switching).1
      = [(.output, ['\t']), (.errors, ['A']), (.output, [Char.ofNat 0x18, '\n'])] := by decide
  have hlast : (.output, [Char.ofNat 0x18, '\n']) ∈ (initial.hear switching).1 := by simp [hheard]
  have hspecial : Terminal.isSpecial '\n' = true := by decide
  exact ⟨hheard, hspecial,
    lineFeed_or_tab_of_isSpecial initial switching _ hlast '\n' (by simp) hspecial⟩

/-! ## Listening up to a refused sequence -/

/-- The listener after reads. -/
def after (listener : Listener) : List (Pipe × List Nat) → Listener
  | [] => listener
  | (pipe, bytes) :: rest =>
    (listener.setStream ((listener.stream pipe).feed bytes).stream pipe).after rest

/-- The characters that the bytes of reads stand for. -/
def decoded (listener : Listener) : List (Pipe × List Nat) → List (Pipe × List Char)
  | [] => []
  | (pipe, bytes) :: rest =>
    (pipe, ((listener.stream pipe).decode bytes).2)
      :: (listener.setStream ((listener.stream pipe).feed bytes).stream pipe).decoded rest

/-- What it means that of some reads the first ones are heard. -/
structure HeardUpTo (listener : Listener) (reads heard rest : List (Pipe × List Nat)) : Prop where
  split : reads = heard ++ rest
  accepted : ∀ before pipe bytes more, heard = before ++ (pipe, bytes) :: more →
    ¬((listener.after before).stream pipe).RefusesWithin bytes
  /-- The first read that is not heard holds a refused sequence. -/
  refused : ∀ pipe bytes more, rest = (pipe, bytes) :: more →
    ((listener.after heard).stream pipe).RefusesWithin bytes
  fault : (listener.hear reads).2 = none ↔ rest = []
  /-- The pieces that come from a pipe are the plain text of its reads that are heard. -/
  text : ∀ pipe, fromPipe pipe (listener.hear reads).1
    = Terminal.plainText (listener.stream pipe).state.phase (fromPipe pipe (listener.decoded heard))

theorem heardUpTo_of_refusesWithin {listener : Listener} {pipe : Pipe} {bytes : List Nat}
    (h : (listener.stream pipe).RefusesWithin bytes) (more : List (Pipe × List Nat)) :
    listener.HeardUpTo ((pipe, bytes) :: more) [] ((pipe, bytes) :: more) := by
  obtain ⟨fault, hfault⟩ :=
    Option.ne_none_iff_exists'.mp ((Terminal.Stream.fault_feed_iff _ _).mpr h)
  have hhear := hear_cons_of_some hfault more
  refine ⟨rfl, by simp, ?_, by simp [hhear], fun pipe => by rw [hhear]; rfl⟩
  rintro _ _ _ ⟨rfl⟩
  exact h

/-- A read without a refused sequence is heard. -/
theorem HeardUpTo.cons {listener : Listener} {pipe : Pipe} {bytes : List Nat}
    {reads heard rest : List (Pipe × List Nat)} (h : ¬(listener.stream pipe).RefusesWithin bytes)
    (later : (listener.setStream ((listener.stream pipe).feed bytes).stream pipe).HeardUpTo
      reads heard rest) :
    listener.HeardUpTo ((pipe, bytes) :: reads) ((pipe, bytes) :: heard) rest := by
  have hfault : ((listener.stream pipe).feed bytes).fault = none := by
    by_contra hfault
    exact h ((Terminal.Stream.fault_feed_iff _ _).mp hfault)
  have hhear := hear_cons_of_none hfault reads
  obtain ⟨htext, hphase⟩ := (listener.stream pipe).feed_plain bytes hfault
  constructor
  case split => rw [later.split, List.cons_append]
  case accepted =>
    rintro before from' read more hheard
    cases before with
    | nil =>
        obtain ⟨⟨rfl, rfl⟩, -⟩ := List.cons.inj hheard
        exact h
    | cons first before =>
        obtain ⟨rfl, hrest⟩ := List.cons.inj hheard
        exact later.accepted before from' read more hrest
  case refused => exact later.refused
  case fault => rw [hhear, later.fault]
  case text =>
    intro other
    rw [hhear, fromPipe_append, fromPipe_piece, later.text, stream_setStream, decoded, fromPipe_cons]
    by_cases hother : other = pipe
    · subst hother
      rw [if_pos rfl, if_pos rfl, if_pos rfl, Terminal.plainText_append, htext, hphase]
    · rw [if_neg (Ne.symm hother), if_neg hother, if_neg (Ne.symm hother)]
      rfl

/-- An output is heard as its plain text up to the first read that holds a refused sequence, and fails
there. -/
theorem heard_upToRefused (listener : Listener) (reads : List (Pipe × List Nat)) :
    ∃ heard rest, listener.HeardUpTo reads heard rest := by
  induction reads generalizing listener with
  | nil => exact ⟨[], [], rfl, by simp, by simp, by simp [hear], fun pipe => rfl⟩
  | cons read more ih =>
      obtain ⟨pipe, bytes⟩ := read
      by_cases hrefuses : (listener.stream pipe).RefusesWithin bytes
      · exact ⟨_, _, heardUpTo_of_refusesWithin hrefuses more⟩
      · obtain ⟨heard, rest, hlater⟩ :=
          ih (listener.setStream ((listener.stream pipe).feed bytes).stream pipe)
        exact ⟨_, _, hlater.cons hrefuses⟩

end Listener

/-- A program that asks for attributes of its text in the middle of it, with a private marker, as some
editors do to find out what a terminal can do. -/
def privateAttributes : Program where
  output := [0x61, 0x1b, 0x5b, 0x3f, 0x34, 0x6d, 0x62]
  errors := []
  status := 0
  running := false

/-- Nothing is heard of the program, though there is text around the sequence. -/
theorem hear_privateAttributes :
    privateAttributes.hear 1024
        = ⟨[], some (.privateMarker "select_graphic_rendition"), false⟩ ∧
      Terminal.plainText .text (Text.Utf8.run .start privateAttributes.output).2 = ['a', 'b'] := by
  have hreads : privateAttributes.reads 1024 = [(.output, privateAttributes.output)] := by
    simp [Program.reads, Program.cut, Program.cutAfter, privateAttributes, Program.inTurns]
  have hhear : Listener.initial.hear [(.output, privateAttributes.output)]
      = ([], some (.privateMarker "select_graphic_rendition")) := by decide
  refine ⟨?_, by decide⟩
  rw [Program.hear, hreads, hhear]
  rfl

end Screencast
