import Screencast.Proofs.Text.Decoding
import Screencast.Terminal.Stream

/-!
# Cut streams

A stream keeps where it stands, so characters can be read in parts (`run_append`).  Bytes are another
matter: how they are decoded is chosen by the characters before them, but only from the next read on.
`feed_append` says that bytes can be read in parts as long as nothing is chosen, for which it is enough
that no escape is followed by a percent sign (`keepsDecoding_initial`).
-/

namespace Screencast.Terminal

/-- Goes on after a reading, unless it failed. -/
def Reading.andThen (reading : Reading) (next : Stream → Reading) : Reading :=
  match reading.fault with
  | some _ => reading
  | none => ⟨(next reading.stream).stream, reading.text ++ (next reading.stream).text,
      (next reading.stream).fault⟩

namespace Reading

variable {reading : Reading} {next : Stream → Reading}

theorem andThen_of_none (h : reading.fault = none) :
    reading.andThen next = ⟨(next reading.stream).stream, reading.text ++ (next reading.stream).text,
      (next reading.stream).fault⟩ := by
  rw [andThen, h]

theorem andThen_of_some {fault : Fault} (h : reading.fault = some fault) :
    reading.andThen next = reading := by
  rw [andThen, h]

/-- A reading in two parts goes well if both parts do. -/
theorem fault_andThen :
    (reading.andThen next).fault = none ↔
      reading.fault = none ∧ (next reading.stream).fault = none := by
  cases h : reading.fault with
  | none => simp only [andThen_of_none h, true_and]
  | some fault => simp [andThen_of_some h, h]

/-- A reading that leaves the stream with another way to decode bytes. -/
def withDecoding (utf8 : Bool) (decoder : Text.Utf8.State) (reading : Reading) : Reading :=
  { reading with stream := { reading.stream with utf8, decoder } }

end Reading

namespace Stream

theorem run_cons (stream : Stream) (c : Char) (rest : List Char) :
    stream.run (c :: rest) = (stream.step c).andThen (run · rest) := by
  rw [run]
  rcases stream.step c with ⟨next, text, _ | fault⟩ <;> rfl

/-- Characters can be read in parts. -/
theorem run_append (stream : Stream) (xs ys : List Char) :
    stream.run (xs ++ ys) = (stream.run xs).andThen (run · ys) := by
  induction xs generalizing stream with
  | nil => rfl
  | cons c rest ih =>
      rw [List.cons_append, run_cons, run_cons]
      cases h : (stream.step c).fault with
      | some fault => rw [Reading.andThen_of_some h, Reading.andThen_of_some h, Reading.andThen_of_some h]
      | none =>
          rw [Reading.andThen_of_none h, Reading.andThen_of_none h, ih]
          cases hrest : ((stream.step c).stream.run rest).fault with
          | some fault => simp only [Reading.andThen, hrest]
          | none => simp only [Reading.andThen, hrest, List.append_assoc]

/-! ## How bytes are decoded

Only the choice of a charset reads or changes how bytes are decoded. -/

section

variable (stream : Stream) (utf8 : Bool) (decoder : Text.Utf8.State)

theorem ground_withDecoding (c : Char) :
    { stream with utf8, decoder }.ground c = (stream.ground c).withDecoding utf8 decoder := by
  simp only [ground]
  split_ifs <;> rfl

theorem afterEscape_withDecoding (c : Char) :
    { stream with utf8, decoder }.afterEscape c
      = (stream.afterEscape c).withDecoding utf8 decoder := by
  simp only [afterEscape]
  split <;> rfl

theorem inControl_withDecoding (parameters : List Nat) (digits : List Char) (isPrivate : Bool)
    (c : Char) :
    { stream with utf8, decoder }.inControl parameters digits isPrivate c
      = (stream.inControl parameters digits isPrivate c).withDecoding utf8 decoder := by
  simp only [inControl, finish]
  split_ifs
  all_goals try rfl
  · cases parameter digits.reverse <;> rfl
  · cases parameter digits.reverse with
    | error fault => rfl
    | ok value =>
        cases Function.ofFinal? c with
        | none => rfl
        | some function =>
            simp only [bind, Except.bind]
            cases stream.screen.apply function (value :: parameters).reverse isPrivate <;> rfl

theorem step_withDecoding (h : stream.state ≠ .charset) (c : Char) :
    { stream with utf8, decoder }.step c = (stream.step c).withDecoding utf8 decoder := by
  simp only [step]
  cases hstate : stream.state with
  | ground => exact ground_withDecoding stream utf8 decoder c
  | escape => exact afterEscape_withDecoding stream utf8 decoder c
  | skip => rfl
  | charset => exact absurd hstate h
  | control parameters digits isPrivate =>
      exact inControl_withDecoding stream utf8 decoder parameters digits isPrivate c
  | commandCode => rfl
  | command => dsimp only; split_ifs <;> rfl
  | commandEscape => rfl

end

/-! ## Texts that choose no charset

A charset is chosen by an escape and a percent sign.  The escape may be the last character that was
read before. -/

/-- No charset is chosen by a text that is read from this state. -/
def KeepsCharset : State → List Char → Prop
  | .charset, _ => False
  | .escape, text => Apart escape '%' (escape :: text)
  | .ground, text | .skip, text | .control _ _ _, text | .commandCode, text | .command, text
  | .commandEscape, text => Apart escape '%' text

theorem KeepsCharset.ne_charset {state : State} {text : List Char} (h : KeepsCharset state text) :
    state ≠ .charset := by
  rintro rfl
  exact h

theorem KeepsCharset.left {state : State} {text more : List Char}
    (h : KeepsCharset state (text ++ more)) : KeepsCharset state text := by
  cases state with
  | charset => exact h
  | escape =>
      have hchain : Apart escape '%' ((escape :: text) ++ more) := h
      exact hchain.left_of_append
  | _ => exact List.IsChain.left_of_append h

theorem state_finish {stream next : Stream} {parameters : List Nat} {digits : List Char}
    {isPrivate : Bool} {c : Char} (h : stream.finish parameters digits isPrivate c = .ok next) :
    next.state = .ground ∨ ∃ value, next.state = .control (value :: parameters) [] isPrivate := by
  unfold finish at h
  cases hvalue : parameter digits.reverse with
  | error fault => simp [hvalue, bind, Except.bind] at h
  | ok value =>
      simp only [hvalue, bind, Except.bind, pure, Except.pure] at h
      split_ifs at h
      · cases h
        exact .inr ⟨value, rfl⟩
      · split at h
        · cases h
          exact .inl rfl
        · split at h
          · cases h
          · cases h
            exact .inl rfl

/-- A character of such a text leaves a state from which the rest chooses no charset. -/
theorem KeepsCharset.step {stream : Stream} {c : Char} {rest : List Char}
    (h : KeepsCharset stream.state (c :: rest)) :
    KeepsCharset (stream.step c).stream.state rest := by
  cases hstate : stream.state with
  | ground =>
      rw [hstate] at h
      simp only [Stream.step, hstate, ground]
      split_ifs with hescape
      · rw [hescape] at h
        exact h
      all_goals exact h.tail
  | escape =>
      rw [hstate] at h
      obtain ⟨hpercent, hrest⟩ := List.isChain_cons_cons.mp h
      simp only [Stream.step, hstate, afterEscape]
      split
      -- only a percent sign leads to a charset
      case h_6 => exact absurd ⟨rfl, rfl⟩ hpercent
      all_goals exact hrest.tail
  | control parameters digits isPrivate =>
      rw [hstate] at h
      have hrest : Apart escape '%' rest := h.tail
      simp only [Stream.step, hstate, inControl]
      split_ifs
      all_goals try exact hrest
      split
      · next next hfinish =>
        rcases state_finish hfinish with hnext | ⟨value, hnext⟩
        all_goals
          simp only [hnext]
          exact hrest
      · exact hrest
  | charset => exact absurd hstate h.ne_charset
  | skip =>
      rw [hstate] at h
      simp only [Stream.step, hstate]
      exact h.tail
  | commandCode | command | commandEscape =>
      rw [hstate] at h
      have hrest : Apart escape '%' rest := h.tail
      simp only [Stream.step, hstate, goto]
      split_ifs <;> exact hrest

theorem run_withDecoding {stream : Stream} {text : List Char} (h : KeepsCharset stream.state text)
    (utf8 : Bool) (decoder : Text.Utf8.State) :
    { stream with utf8, decoder }.run text = (stream.run text).withDecoding utf8 decoder := by
  induction text generalizing stream with
  | nil => rfl
  | cons c rest ih =>
      have hrest := ih h.step
      rw [run_cons, run_cons, step_withDecoding stream utf8 decoder h.ne_charset]
      cases hfault : (stream.step c).fault with
      | some fault => simp only [Reading.andThen, Reading.withDecoding, hfault]
      | none =>
          simp only [Reading.andThen, Reading.withDecoding, hfault] at hrest ⊢
          rw [hrest]

theorem KeepsCharset.run {stream : Stream} {text more : List Char}
    (h : KeepsCharset stream.state (text ++ more)) (hfault : (stream.run text).fault = none) :
    KeepsCharset (stream.run text).stream.state more := by
  induction text generalizing stream with
  | nil => exact h
  | cons c rest ih =>
      rw [run_cons] at hfault ⊢
      obtain ⟨hstep, hrest⟩ := Reading.fault_andThen.mp hfault
      rw [Reading.andThen_of_none hstep]
      exact ih h.step hrest

/-! ## Bytes in parts -/

/-- A stream that decodes UTF-8 and goes on to do so while these bytes are read. -/
structure KeepsDecoding (stream : Stream) (bytes : List Nat) : Prop where
  utf8 : stream.utf8 = true
  text : KeepsCharset stream.state (Text.Utf8.run stream.decoder bytes).2

/-- Bytes without an escape that is followed by a percent sign choose no charset. -/
theorem keepsDecoding_initial {bytes : List Nat} (h : Apart 0x1b 0x25 bytes) :
    initial.KeepsDecoding bytes where
  utf8 := rfl
  text := by
    have hstart : Text.Utf8.State.start.Proper := trivial
    have hescape : Text.Utf8.IsAscii escape := ⟨by decide, by decide⟩
    have hpercent : Text.Utf8.IsAscii '%' := ⟨by decide, by decide⟩
    exact Text.Utf8.isChain_run hstart hescape hpercent h

theorem feed_eq {stream : Stream} (h : stream.utf8 = true) (bytes : List Nat) :
    stream.feed bytes = { stream with decoder := (Text.Utf8.run stream.decoder bytes).1 }.run
      (Text.Utf8.run stream.decoder bytes).2 := by
  simp only [feed, decode, h, if_true]

/-- Bytes can be read in parts, as long as no charset is chosen. -/
theorem feed_append {stream : Stream} {bytes more : List Nat}
    (h : stream.KeepsDecoding (bytes ++ more)) (hfault : (stream.feed (bytes ++ more)).fault = none) :
    (stream.feed bytes).fault = none ∧ (stream.feed bytes).stream.KeepsDecoding more ∧
      stream.feed (bytes ++ more) = (stream.feed bytes).andThen (feed · more) := by
  obtain ⟨hutf8, htext⟩ := h
  rw [Text.Utf8.run_append] at htext
  rw [feed_eq hutf8 (bytes ++ more), Text.Utf8.run_append] at hfault ⊢
  rw [feed_eq hutf8 bytes]
  generalize hdecoded : Text.Utf8.run stream.decoder bytes = decoded at htext hfault ⊢
  generalize hlater : Text.Utf8.run decoded.1 more = later at htext hfault ⊢
  -- with either decoder the first part is read as with the one that the stream has
  have hrun (decoder : Text.Utf8.State) : { stream with decoder }.run decoded.2
      = (stream.run decoded.2).withDecoding stream.utf8 decoder :=
    run_withDecoding htext.left stream.utf8 decoder
  rw [run_append, hrun later.1] at hfault ⊢
  rw [hrun decoded.1]
  obtain ⟨hfirst, -⟩ := Reading.fault_andThen.mp hfault
  refine ⟨hfirst, ⟨hutf8, ?_⟩, ?_⟩
  · simp only [Reading.withDecoding, hlater]
    exact htext.run hfirst
  · have hmore : ((stream.run decoded.2).withDecoding stream.utf8 decoded.1).stream.feed more
        = { (stream.run decoded.2).stream with utf8 := stream.utf8, decoder := later.1 }.run
            later.2 := by
      rw [feed_eq (by exact hutf8)]
      simp only [Reading.withDecoding, hlater]
    rw [Reading.andThen_of_none (by exact hfirst), Reading.andThen_of_none (by exact hfirst), hmore]
    rfl

end Stream

end Screencast.Terminal
