import Mathlib.Data.List.TakeWhile
import Mathlib.Tactic.SplitIfs
import Screencast.Proofs.Terminal.Cutting
import Screencast.Proofs.Terminal.PlainText

/-!
# Refused sequences

Reading an output fails at control sequences that cannot be carried out.  They are described here by what
they ask for: a function refuses a private marker that it does not know, parameters that are too many, a
part of the screen that does not exist, and a position when positions count from margins that are not set
(`Screen.Refuses`).  A stream refuses a character that ends a sequence in which such a function is asked
for, or a parameter that is no number (`Stream.Refuses`).

There are no other failures: `Stream.fault_run_iff`.
-/

namespace Screencast.Terminal

/-! ## Parameters -/

/-- Digits that are read as a parameter: decimal ones, and not too many. -/
def Readable (digits : List Char) : Prop :=
  digits.length ≤ Text.maxDigits ∧ ∀ c ∈ digits, (Text.decimalValue? c).isSome

theorem foldl_none (digits : List Char) :
    digits.foldl (fun sum c => do return 10 * (← sum) + (← Text.decimalValue? c))
      (none : Option Nat) = none := by
  induction digits with
  | nil => rfl
  | cons c rest ih => exact ih

theorem isSome_decimalNumber? (digits : List Char) :
    (Text.decimalNumber? digits).isSome ↔ ∀ c ∈ digits, (Text.decimalValue? c).isSome := by
  suffices h : ∀ sum : Nat,
      (digits.foldl (fun sum c => do return 10 * (← sum) + (← Text.decimalValue? c))
        (some sum)).isSome ↔ ∀ c ∈ digits, (Text.decimalValue? c).isSome from h 0
  induction digits with
  | nil => simp
  | cons c rest ih =>
      intro sum
      rw [List.foldl_cons, List.forall_mem_cons]
      cases h : Text.decimalValue? c with
      | none => simpa using congrArg Option.isSome (foldl_none rest)
      | some value =>
          rw [← ih (10 * sum + value)]
          simp

/-- A parameter has a value exactly if its digits can be read. -/
theorem parameter_isOk_iff {digits : List Char} :
    (∃ n, parameter digits = .ok n) ↔ Readable digits := by
  have hvalue := isSome_decimalNumber? digits
  have hdecimals : (digits.takeWhile fun c => (Text.decimalValue? c).isSome).length
      ≤ digits.length := (List.takeWhile_prefix _).length_le
  constructor
  · rintro ⟨n, hn⟩
    simp only [parameter] at hn
    split_ifs at hn with hmany
    cases hnumber : Text.decimalNumber? digits with
    | none => simp [hnumber] at hn
    | some number =>
        have hall := hvalue.mp (by rw [hnumber, Option.isSome_some])
        -- then the limit counts all digits
        rw [List.takeWhile_eq_self_iff.mpr hall] at hmany
        exact ⟨Nat.le_of_not_lt hmany, hall⟩
  · rintro ⟨hfew, hall⟩
    obtain ⟨number, hnumber⟩ := Option.isSome_iff_exists.mp (hvalue.mpr hall)
    refine ⟨min number greatestParameter, ?_⟩
    unfold parameter
    rw [if_neg (by omega), hnumber]

/-! ## Functions -/

/-- Parameters that a function does not take. -/
inductive Function.Misused : Function → List Nat → Bool → Prop
  | marked {function : Function} {parameters : List Nat} (h : function.allowsPrivate = false) :
      Misused function parameters true
  /-- The second parameter of this function says what the marker says. -/
  | markedTwice {parameters : List Nat} (h : 2 ≤ parameters.length) :
      Misused .eraseLine parameters true
  | tooMany {function : Function} {parameters : List Nat} {isPrivate : Bool} {most : Nat}
      (hmost : function.mostParameters = some most) (h : most < parameters.length) :
      Misused function parameters isPrivate

theorem Function.check_eq_ok_iff {function : Function} {parameters : List Nat} {isPrivate : Bool} :
    function.check parameters isPrivate = .ok () ↔ ¬function.Misused parameters isPrivate := by
  constructor
  · intro hcheck hmisused
    cases hmisused with
    | marked h => simp [check, h] at hcheck
    | markedTwice h => simp [check, h, allowsPrivate] at hcheck
    | tooMany hmost h =>
        unfold check at hcheck
        split_ifs at hcheck
        simp [hmost, h] at hcheck
  · intro hmisused
    unfold check
    split_ifs with hmarked htwice
    · rw [Bool.and_eq_true, Bool.not_eq_true'] at hmarked
      obtain ⟨rfl, hallows⟩ := hmarked
      exact absurd (.marked hallows) hmisused
    · simp only [Bool.and_eq_true, decide_eq_true_eq] at htwice
      obtain ⟨⟨rfl, rfl⟩, hparameters⟩ := htwice
      exact absurd (.markedTwice hparameters) hmisused
    · split
      · rfl
      · next most hmost =>
        rw [if_neg]
        intro h
        exact hmisused (.tooMany hmost h)

/-- A function that a screen does not carry out. -/
inductive Screen.Refuses (screen : Screen) : Function → List Nat → Bool → Prop
  | misused {function : Function} {parameters : List Nat} {isPrivate : Bool}
      (h : function.Misused parameters isPrivate) : Refuses screen function parameters isPrivate
  | noPart {parameters : List Nat} {isPrivate : Bool} (h : 3 < parameters.headD 0) :
      Refuses screen .eraseDisplay parameters isPrivate
  | noPartOfLine {parameters : List Nat} {isPrivate : Bool} (h : 2 < parameters.headD 0) :
      Refuses screen .eraseLine parameters isPrivate
  /-- Lines count from margins that are not set. -/
  | noLine {parameters : List Nat} {isPrivate : Bool} (origin : screen.origin = true)
      (margins : screen.margins = none) : Refuses screen .cursorToLine parameters isPrivate
  /-- The position that is asked for counts from margins that are not set. -/
  | noPosition {parameters : List Nat} {isPrivate : Bool} (h : parameters.headD 0 = 6)
      (origin : screen.origin = true) (margins : screen.margins = none) :
      Refuses screen .reportStatus parameters isPrivate

theorem Screen.apply_isOk_iff {screen : Screen} {function : Function} {parameters : List Nat}
    {isPrivate : Bool} :
    (∃ next, screen.apply function parameters isPrivate = .ok next)
      ↔ ¬screen.Refuses function parameters isPrivate := by
  constructor
  · rintro ⟨next, hnext⟩ hrefuses
    cases hcheck : function.check parameters isPrivate with
    | error fault => simp [apply, hcheck, bind, Except.bind] at hnext
    | ok =>
        cases hrefuses with
        | misused h => exact Function.check_eq_ok_iff.mp hcheck h
        | noPart h | noPartOfLine h =>
            simp only [apply, hcheck, bind, Except.bind, if_pos h, reduceCtorEq] at hnext
        | noLine origin margins =>
            simp [apply, hcheck, bind, Except.bind, origin, margins] at hnext
        | noPosition h origin margins =>
            simp only [apply, hcheck, bind, Except.bind, h, origin, margins] at hnext
            cases hnext
  · intro hrefuses
    have hcheck : function.check parameters isPrivate = .ok () :=
      Function.check_eq_ok_iff.mpr fun h => hrefuses (.misused h)
    simp only [apply, hcheck, bind, Except.bind]
    cases function with
    | eraseDisplay => exact ⟨screen, if_neg fun h => hrefuses (.noPart h)⟩
    | eraseLine => exact ⟨screen, if_neg fun h => hrefuses (.noPartOfLine h)⟩
    | cursorToLine =>
        refine ⟨screen, if_neg fun h => ?_⟩
        rw [Bool.and_eq_true, Option.isNone_iff_eq_none] at h
        exact hrefuses (.noLine h.1 h.2)
    | reportStatus =>
        refine ⟨screen, if_neg fun h => ?_⟩
        rw [Bool.and_eq_true, Bool.and_eq_true, Option.isNone_iff_eq_none, decide_eq_true_eq] at h
        exact hrefuses (.noPosition h.1.1 h.1.2 h.2)
    | _ => exact ⟨_, rfl⟩

/-! ## Sequences -/

/-- The characters that end a parameter, and all but the separator the sequence with it. -/
def endsParameter (c : Char) : Bool :=
  c = ';' || !(continuesControl c || isCancel c || c = '$')

theorem endsParameter_of_ofFinal? {c : Char} {function : Function}
    (h : Function.ofFinal? c = some function) : endsParameter c = true := by
  unfold Function.ofFinal? at h
  split at h
  all_goals first | rfl | cases h

/-- A character at which a control sequence fails. -/
inductive Stream.Refuses (stream : Stream) (c : Char) : Prop
  | numeral {parameters : List Nat} {digits : List Char} {isPrivate : Bool}
      (state : stream.state = .control parameters digits isPrivate) (ends : endsParameter c = true)
      (unreadable : ¬Readable digits.reverse)
  | function {parameters : List Nat} {digits : List Char} {isPrivate : Bool} {last : Nat}
      {function : Function} (state : stream.state = .control parameters digits isPrivate)
      (final : Function.ofFinal? c = some function) (value : parameter digits.reverse = .ok last)
      (refuses : stream.screen.Refuses function (last :: parameters).reverse isPrivate)

namespace Stream

variable {stream : Stream} {c : Char}

/-- A character that ends a parameter is read unless it is refused. -/
theorem finish_isOk_iff {parameters : List Nat} {digits : List Char} {isPrivate : Bool}
    (state : stream.state = .control parameters digits isPrivate) (ends : endsParameter c = true) :
    (∃ next, stream.finish parameters digits isPrivate c = .ok next) ↔ ¬stream.Refuses c := by
  constructor
  · rintro ⟨next, hnext⟩ hrefuses
    cases hrefuses with
    | numeral state' ends unreadable =>
        obtain ⟨rfl, rfl, rfl⟩ := State.control.inj (state.symm.trans state')
        cases hvalue : parameter digits.reverse with
        | ok last => exact unreadable (parameter_isOk_iff.mp ⟨last, hvalue⟩)
        | error fault => simp [finish, hvalue, bind, Except.bind] at hnext
    | @function _ _ _ last function state' final value refuses =>
        obtain ⟨rfl, rfl, rfl⟩ := State.control.inj (state.symm.trans state')
        have hseparator : c ≠ ';' := by
          rintro rfl
          cases final
        cases happly : stream.screen.apply function (last :: parameters).reverse isPrivate with
        | ok screen => exact Screen.apply_isOk_iff.mp ⟨screen, happly⟩ refuses
        | error fault =>
            simp only [finish, value, bind, Except.bind, if_neg hseparator, final, happly,
              reduceCtorEq] at hnext
  · intro hrefuses
    have hreadable : Readable digits.reverse := by
      by_contra h
      exact hrefuses (.numeral state ends h)
    obtain ⟨last, hlast⟩ := parameter_isOk_iff.mpr hreadable
    simp only [finish, hlast, bind, Except.bind]
    split_ifs
    · exact ⟨_, rfl⟩
    cases hfinal : Function.ofFinal? c with
    | none => exact ⟨_, rfl⟩
    | some function =>
        obtain ⟨screen, hscreen⟩ := Screen.apply_isOk_iff.mpr fun h =>
          hrefuses (.function state hfinal hlast h)
        simp only [hscreen]
        exact ⟨_, rfl⟩

/-- The other characters of a control sequence are excluded. -/
theorem excluded_of_endsParameter (ends : endsParameter c = true) :
    c ≠ '?' ∧ isMovement c = false ∧ ¬(c = ' ' ∨ c = '>') ∧ isCancel c = false ∧
      Text.isDigit c = false ∧ c ≠ '$' := by
  by_cases hseparator : c = ';'
  · subst hseparator
    decide
  · simp only [endsParameter, hseparator, decide_false, Bool.false_or, Bool.not_eq_true',
      Bool.or_eq_false_iff, continuesControl, decide_eq_false_iff_not] at ends
    obtain ⟨⟨⟨⟨⟨⟨⟨hmark, hmovement⟩, hblank⟩, hgreater⟩, -⟩, hdigit⟩, hcancel⟩, hdollar⟩ := ends
    exact ⟨hmark, hmovement, not_or.mpr ⟨hblank, hgreater⟩, hcancel, hdigit, hdollar⟩

theorem fault_inControl_of_endsParameter (ends : endsParameter c = true) (parameters : List Nat)
    (digits : List Char) (isPrivate : Bool) :
    (stream.inControl parameters digits isPrivate c).fault = none ↔
      ∃ next, stream.finish parameters digits isPrivate c = .ok next := by
  obtain ⟨hmark, hmovement, hblank, hcancel, hdigit, hdollar⟩ := excluded_of_endsParameter ends
  cases hfinish : stream.finish parameters digits isPrivate c with
  | ok next => simp [inControl, hmark, hmovement, hblank, hcancel, hdigit, hdollar, hfinish]
  | error fault => simp [inControl, hmark, hmovement, hblank, hcancel, hdigit, hdollar, hfinish]

theorem fault_inControl_of_not_endsParameter (ends : endsParameter c = false)
    (parameters : List Nat) (digits : List Char) (isPrivate : Bool) :
    (stream.inControl parameters digits isPrivate c).fault = none := by
  unfold inControl
  split_ifs with hmark hmovement hblank hcancel hdigit hdollar
  all_goals try rfl
  simp only [not_or] at hblank
  simp_all [endsParameter, continuesControl]

theorem Refuses.endsParameter (h : stream.Refuses c) : endsParameter c = true := by
  cases h with
  | numeral _ ends _ => exact ends
  | function _ final _ _ => exact endsParameter_of_ofFinal? final

/-- Only in a control sequence a character can be refused. -/
theorem Refuses.state (h : stream.Refuses c) :
    ∃ parameters digits isPrivate, stream.state = .control parameters digits isPrivate := by
  cases h with
  | numeral state _ _ | function state _ _ _ => exact ⟨_, _, _, state⟩

theorem fault_step_of_not_control
    (h : ∀ parameters digits isPrivate, stream.state ≠ .control parameters digits isPrivate) :
    (stream.step c).fault = none := by
  simp only [step]
  cases hstate : stream.state with
  | ground =>
      simp only [ground]
      split_ifs <;> rfl
  | escape =>
      simp only [afterEscape]
      split <;> rfl
  | charset =>
      simp only [selectCharset]
      split <;> rfl
  | control parameters digits isPrivate => exact absurd hstate (h parameters digits isPrivate)
  | command =>
      dsimp only
      split_ifs <;> rfl
  | skip | commandCode | commandEscape => rfl

/-- Reading a character fails exactly if it is refused. -/
theorem fault_step_iff : (stream.step c).fault ≠ none ↔ stream.Refuses c := by
  by_cases hcontrol : ∃ parameters digits isPrivate,
      stream.state = .control parameters digits isPrivate
  · obtain ⟨parameters, digits, isPrivate, hstate⟩ := hcontrol
    have hstep : stream.step c = stream.inControl parameters digits isPrivate c := by
      rw [step, hstate]
    rw [hstep]
    cases hends : Terminal.endsParameter c with
    | false =>
        have hfault : (stream.inControl parameters digits isPrivate c).fault = none :=
          fault_inControl_of_not_endsParameter hends parameters digits isPrivate
        refine ⟨fun h => absurd hfault h, fun h => ?_⟩
        rw [h.endsParameter] at hends
        cases hends
    | true =>
        rw [ne_eq, fault_inControl_of_endsParameter hends, finish_isOk_iff hstate hends, not_not]
  · have hfault : (stream.step c).fault = none :=
      fault_step_of_not_control fun parameters digits isPrivate h =>
        hcontrol ⟨parameters, digits, isPrivate, h⟩
    exact ⟨fun h => absurd hfault h, fun h => absurd h.state hcontrol⟩

/-- Reading characters fails exactly if one of them is refused after those before it were read. -/
theorem fault_run_iff {chars : List Char} :
    (stream.run chars).fault ≠ none ↔ ∃ before c after, chars = before ++ c :: after ∧
      (stream.run before).fault = none ∧ (stream.run before).stream.Refuses c := by
  induction chars generalizing stream with
  | nil => simp [run]
  | cons c rest ih =>
      rw [run_cons]
      cases hstep : (stream.step c).fault with
      | some fault =>
          have hrefuses : stream.Refuses c := fault_step_iff.mp (by simp [hstep])
          rw [Reading.andThen_of_some hstep]
          exact iff_of_true (by simp [hstep]) ⟨[], c, rest, rfl, rfl, hrefuses⟩
      | none =>
          rw [Reading.andThen_of_none hstep, ih]
          constructor
          · rintro ⟨before, d, after, rfl, hbefore, hrefuses⟩
            refine ⟨c :: before, d, after, rfl, ?_, ?_⟩
            · rw [run_cons]
              exact Reading.fault_andThen.mpr ⟨hstep, hbefore⟩
            · rwa [run_cons, Reading.andThen_of_none hstep]
          · rintro ⟨before, d, after, hchars, hbefore, hrefuses⟩
            cases before with
            | nil =>
                -- the first character is not refused
                obtain ⟨rfl, -⟩ := List.cons.inj hchars
                exact absurd hstep (fault_step_iff.mpr hrefuses)
            | cons e before =>
                obtain ⟨rfl, rfl⟩ := List.cons.inj hchars
                rw [run_cons] at hbefore hrefuses
                rw [Reading.andThen_of_none hstep] at hrefuses
                exact ⟨before, d, after, rfl, (Reading.fault_andThen.mp hbefore).2, hrefuses⟩

end Stream

end Screencast.Terminal
