import Mathlib.Data.Nat.Init
import Mathlib.Tactic.ByContra
import Screencast.Proofs.Number.Reaching
import Screencast.Proofs.Replay.Sheet

/-!
# Replays under way

The cues of a wait are counted before any of them is performed.  A `Course` is a replay under way that
looks at the screen again and again instead, with nothing to bound it: `Course.pass` is what it does
next, and `Course.Yields` says that it comes to a result.

`exists_yields_iff` says when it does, `yields_iff_performRecords` that it is the result of the cues if no
wait is without a bound.
-/

namespace Screencast

/-- A wait under way: what is waited for, for how long at most, and for how long so far. -/
structure Wait where
  text : Text
  timeout : Number
  waited : Nat

/-- A replay under way. -/
structure Course where
  stage : Stage
  /-- What is left to perform before anything else. -/
  cues : List Cue
  wait : Option Wait
  /-- The records after the one that is carried out. -/
  records : List Json

namespace Course

/-- A replay before its first record. -/
def start (stage : Stage) (records : List Json) : Course := ⟨stage, [], none, records⟩

/-- Looks at the screen: the wait is over, or it has taken too long, or it goes on. -/
def poll (course : Course) (wait : Wait) : Course ⊕ (Stage × Option Halt) :=
  if Text.occursIn wait.text course.stage.session.buffer then .inl { course with wait := none }
  else if wait.timeout.reachedBy wait.waited then
    .inr (course.stage, some (.failed (.timeout wait.text)))
  else
    .inl { course with
      cues := [.hold Session.pollInterval course.stage.session]
      wait := some { wait with waited := wait.waited + Session.pollInterval } }

variable (setting : Setting)

/-- Takes up a record. -/
def takeUp (stage : Stage) (record : Json) (records : List Json) : Course ⊕ (Stage × Option Halt) :=
  match Step.ofRecord record with
  | .error error => .inr (stage, some (.failed (.step error)))
  | .ok (.waitFor text timeout) => .inl ⟨stage, [], some ⟨text, timeout, 0⟩, records⟩
  | .ok step => .inl ⟨stage, step.cues setting.commands stage.session, none, records⟩

/-- The next thing that a replay does: it performs a cue, looks at the screen, takes up a record, or
is at its end. -/
def pass (course : Course) : Course ⊕ (Stage × Option Halt) :=
  match course.cues, course.wait, course.records with
  | cue :: cues, _, _ =>
    match course.stage.perform setting cue with
    | (stage, none) => .inl { course with stage, cues }
    | (stage, some halt) => .inr (stage, some halt)
  | [], some wait, _ => course.poll wait
  | [], none, record :: records => takeUp setting course.stage record records
  | [], none, [] => .inr (course.stage, none)

/-- The result of a replay, if it comes to it in so many passes. -/
def result? : Nat → Course → Option (Stage × Option Halt)
  | 0, _ => none
  | passes + 1, course =>
    match course.pass setting with
    | .inl next => result? passes next
    | .inr result => some result

/-- A replay that comes to a result. -/
def Yields (course : Course) (result : Stage × Option Halt) : Prop :=
  ∃ passes, course.result? setting passes = some result

variable {setting} {course next : Course} {stage : Stage} {result last : Stage × Option Halt}
  {wait : Option Wait} {records : List Json}

theorem yields_of_inl (h : course.pass setting = .inl next) :
    course.Yields setting result ↔ next.Yields setting result := by
  constructor
  · rintro ⟨_ | passes, hresult⟩
    · cases hresult
    · rw [result?, h] at hresult
      exact ⟨passes, hresult⟩
  · rintro ⟨passes, hresult⟩
    refine ⟨passes + 1, ?_⟩
    rw [result?, h]
    exact hresult

theorem yields_of_inr (h : course.pass setting = .inr last) :
    course.Yields setting result ↔ last = result := by
  constructor
  · rintro ⟨_ | passes, hresult⟩
    · cases hresult
    · rw [result?, h] at hresult
      exact Option.some.inj hresult
  · rintro rfl
    exact ⟨1, by rw [result?, h]⟩

/-! ## Cues -/

/-- A cue that comes to no halt brings the course to what is left. -/
theorem yields_of_cue {cue : Cue} {cues : List Cue} {next : Stage}
    (h : stage.perform setting cue = (next, none)) :
    Yields setting ⟨stage, cue :: cues, wait, records⟩ result ↔
      Yields setting ⟨next, cues, wait, records⟩ result := by
  refine yields_of_inl ?_
  simp only [pass, h]

/-- A cue that comes to a halt brings the course to its end. -/
theorem yields_of_cue_halted {cue : Cue} {cues : List Cue} {raised : Stage} {halt : Halt}
    (h : stage.perform setting cue = (raised, some halt)) :
    Yields setting ⟨stage, cue :: cues, wait, records⟩ result ↔ (raised, some halt) = result := by
  refine yields_of_inr ?_
  simp only [pass, h]

/-- Cues that come to no halt are performed before the course goes on. -/
theorem yields_of_performed {cues : List Cue} {ended : Stage}
    (h : stage.performAll setting cues = (ended, none)) :
    Yields setting ⟨stage, cues, wait, records⟩ result ↔
      Yields setting ⟨ended, [], wait, records⟩ result := by
  induction cues generalizing stage with
  | nil =>
      obtain rfl : stage = ended := (Prod.mk.inj h).1
      exact Iff.rfl
  | cons cue rest ih =>
      rw [Stage.performAll_cons] at h
      obtain ⟨next, hcue, hrest⟩ := Stage.andThen_eq_none h
      rw [yields_of_cue hcue, ih hrest]

/-- Cues that come to a halt bring the course to its end. -/
theorem yields_of_halted {cues : List Cue} {raised : Stage} {halt : Halt}
    (h : stage.performAll setting cues = (raised, some halt)) :
    Yields setting ⟨stage, cues, wait, records⟩ result ↔ (raised, some halt) = result := by
  induction cues generalizing stage with
  | nil => cases h
  | cons cue rest ih =>
      rw [Stage.performAll_cons] at h
      rcases hcue : stage.perform setting cue with ⟨next, _ | reason⟩
      · rw [hcue, Stage.andThen_none] at h
        rw [yields_of_cue hcue, ih h]
      · rw [hcue, Stage.andThen_some] at h
        rw [yields_of_cue_halted hcue, h]

/-! ## Waits -/

/-- The course of a wait after so many milliseconds. -/
def waiting (stage : Stage) (text : Text) (timeout : Number) (waited : Nat) (records : List Json) :
    Course :=
  ⟨stage, [], some ⟨text, timeout, waited⟩, records⟩

variable {text : Text} {timeout : Number}

theorem yields_of_present (h : Text.occursIn text stage.session.buffer = true) (waited : Nat) :
    (waiting stage text timeout waited records).Yields setting result ↔
      (start stage records).Yields setting result := by
  refine yields_of_inl ?_
  simp only [pass, waiting, poll, h, if_true]
  rfl

/-- A look at the screen does not change the session, so a text that is not there does not appear. -/
theorem session_poll {next : Stage}
    (h : stage.perform setting (.hold Session.pollInterval stage.session) = (next, none)) :
    next.session = stage.session := by
  have hsession := Stage.session_perform setting (.hold Session.pollInterval stage.session) stage
  rwa [h] at hsession

/-- A wait with a bound performs the cues that were counted for it. -/
theorem yields_of_stepsToReach {count : Nat}
    (hsteps : timeout.stepsToReach Session.pollInterval = some count)
    (habsent : Text.occursIn text stage.session.buffer = false) (left done : Nat)
    (hcount : done + left = count) :
    (waiting stage text timeout (done * Session.pollInterval) records).Yields setting result ↔
      stage.performAll setting (List.replicate left (.hold Session.pollInterval stage.session)
        ++ [.halt (.failed (.timeout text))]) = result := by
  have hreached := Number.reachedBy_iff_of_stepsToReach (by decide) hsteps done
  induction left generalizing stage done with
  | zero =>
      have hlate : timeout.reachedBy (done * Session.pollInterval) = true := hreached.mpr (by omega)
      refine yields_of_inr ?_
      simp only [pass, waiting, poll, habsent, hlate, Bool.false_eq_true, if_false, if_true]
      rfl
  | succ left ih =>
      have hearly : timeout.reachedBy (done * Session.pollInterval) = false := by
        rw [← Bool.not_eq_true, hreached]
        omega
      have hpass : pass setting (waiting stage text timeout (done * Session.pollInterval) records)
          = .inl ⟨stage, [.hold Session.pollInterval stage.session],
              some ⟨text, timeout, (done + 1) * Session.pollInterval⟩, records⟩ := by
        rw [Nat.succ_mul]
        simp only [pass, waiting, poll, habsent, hearly, Bool.false_eq_true, if_false]
      rw [yields_of_inl hpass, List.replicate_succ, List.cons_append, Stage.performAll_cons]
      rcases hpoll : stage.perform setting (.hold Session.pollInterval stage.session) with
        ⟨next, _ | halt⟩
      · have hsession := session_poll hpoll
        rw [yields_of_cue hpoll, Stage.andThen_none, ← hsession]
        rw [← hsession] at habsent
        exact ih habsent (done + 1) (by omega)
          (Number.reachedBy_iff_of_stepsToReach (by decide) hsteps (done + 1))
      · rw [yields_of_cue_halted hpoll, Stage.andThen_some]

/-- Looking at the screen so many times. -/
def polls (setting : Setting) (stage : Stage) (count : Nat) : Stage × Option Halt :=
  stage.performAll setting (List.replicate count (.hold Session.pollInterval stage.session))

theorem polls_succ {next : Stage}
    (h : stage.perform setting (.hold Session.pollInterval stage.session) = (next, none))
    (count : Nat) : polls setting stage (count + 1) = polls setting next count := by
  rw [polls, polls, List.replicate_succ, Stage.performAll_cons, h, Stage.andThen_none,
    session_poll h]

/-- The first look of a wait without a bound, and what the course goes on with. -/
theorem pass_of_boundless (hbound : timeout.Boundless)
    (habsent : Text.occursIn text stage.session.buffer = false) (waited : Nat) :
    pass setting (waiting stage text timeout waited records)
      = .inl ⟨stage, [.hold Session.pollInterval stage.session],
          some ⟨text, timeout, waited + Session.pollInterval⟩, records⟩ := by
  simp only [pass, waiting, poll, habsent, hbound.reachedBy, Bool.false_eq_true, if_false]

/-- A wait without a bound comes to no result but that of so many looks, the last of which is halted. -/
theorem exists_polls_of_yields (hbound : timeout.Boundless)
    (habsent : Text.occursIn text stage.session.buffer = false) {waited : Nat}
    (hyields : (waiting stage text timeout waited records).Yields setting result) :
    ∃ count, polls setting stage count = result ∧ result.2 ≠ none := by
  obtain ⟨passes, hresult⟩ := hyields
  -- one look takes two passes
  induction passes using Nat.twoStepInduction generalizing stage waited with
  | zero => cases hresult
  | one =>
      rw [result?, pass_of_boundless hbound habsent] at hresult
      cases hresult
  | more passes ih _ =>
      rw [result?, pass_of_boundless hbound habsent] at hresult
      simp only at hresult
      rcases hpoll : stage.perform setting (.hold Session.pollInterval stage.session) with
        ⟨next, _ | halt⟩
      · have hpass : pass setting ⟨stage, [.hold Session.pollInterval stage.session],
              some ⟨text, timeout, waited + Session.pollInterval⟩, records⟩
            = .inl (waiting next text timeout (waited + Session.pollInterval) records) := by
          simp only [pass, hpoll]
          rfl
        rw [result?, hpass] at hresult
        rw [← session_poll hpoll] at habsent
        obtain ⟨count, hcount, hhalts⟩ := ih habsent hresult
        refine ⟨count + 1, ?_, hhalts⟩
        rw [polls_succ hpoll, hcount]
      · have hlast : result? setting (passes + 1) ⟨stage, [.hold Session.pollInterval stage.session],
              some ⟨text, timeout, waited + Session.pollInterval⟩, records⟩
            = some (next, some halt) := by
          simp only [result?, pass, hpoll]
        obtain rfl := Option.some.inj (hlast.symm.trans hresult)
        refine ⟨1, ?_, Option.some_ne_none halt⟩
        rw [polls, List.replicate_one, Stage.performAll_cons, hpoll, Stage.andThen_some]

/-- A look that is halted ends a wait without a bound. -/
theorem yields_of_polls (hbound : timeout.Boundless)
    (habsent : Text.occursIn text stage.session.buffer = false) {count : Nat}
    (hpolls : polls setting stage count = result) (hhalts : result.2 ≠ none) (waited : Nat) :
    (waiting stage text timeout waited records).Yields setting result := by
  induction count generalizing stage waited with
  | zero =>
      obtain rfl : (stage, none) = result := hpolls
      exact absurd rfl hhalts
  | succ count ih =>
      rw [yields_of_inl (pass_of_boundless hbound habsent waited)]
      rcases hpoll : stage.perform setting (.hold Session.pollInterval stage.session) with
        ⟨next, _ | halt⟩
      · rw [yields_of_cue hpoll]
        refine ih ?_ ?_ _
        · rwa [session_poll hpoll]
        · rwa [← polls_succ hpoll]
      · rw [yields_of_cue_halted hpoll, ← hpolls, polls, List.replicate_succ, Stage.performAll_cons,
          hpoll, Stage.andThen_some]

/-- What a wait without a bound comes to does not depend on the records after it. -/
theorem yields_iff_polls (hbound : timeout.Boundless)
    (habsent : Text.occursIn text stage.session.buffer = false) (waited : Nat) :
    (waiting stage text timeout waited records).Yields setting result ↔
      ∃ count, polls setting stage count = result ∧ result.2 ≠ none :=
  ⟨exists_polls_of_yields hbound habsent,
    fun ⟨_, hpolls, hhalts⟩ => yields_of_polls hbound habsent hpolls hhalts waited⟩

theorem exists_yields_iff_polls (hbound : timeout.Boundless)
    (habsent : Text.occursIn text stage.session.buffer = false) (waited : Nat) :
    (∃ result, (waiting stage text timeout waited records).Yields setting result) ↔
      ∃ count, (polls setting stage count).2 ≠ none := by
  simp only [yields_iff_polls hbound habsent waited]
  exact ⟨fun ⟨_, count, hpolls, hhalts⟩ => ⟨count, hpolls ▸ hhalts⟩,
    fun ⟨count, hhalts⟩ => ⟨_, count, rfl, hhalts⟩⟩

end Course

/-! ## Records -/

/-- A replay of records arrives at a wait for a text that is not on the screen. -/
inductive ArrivesAt (setting : Setting) : Stage → List Json → Stage → Text → Number → Prop
  | here {stage : Stage} {record : Json} {rest : List Json} {text : Text} {timeout : Number}
      (parsed : Step.ofRecord record = .ok (.waitFor text timeout))
      (absent : Text.occursIn text stage.session.buffer = false) :
      ArrivesAt setting stage (record :: rest) stage text timeout
  | later {stage next now : Stage} {record : Json} {rest : List Json} {text : Text}
      {timeout : Number} (performed : stage.executeRecord setting record = (next, none))
      (arrives : ArrivesAt setting next rest now text timeout) :
      ArrivesAt setting stage (record :: rest) now text timeout

namespace Stage

variable {setting : Setting} {stage next raised : Stage} {record : Json} {halt : Halt}

theorem executeRecord_of_step {step : Step} (hparsed : Step.ofRecord record = .ok step) :
    stage.executeRecord setting record
      = stage.performAll setting (step.cues setting.commands stage.session) := by
  rw [executeRecord, hparsed]
  rfl

/-- Cues that end with a halt come to one. -/
theorem performAll_halt_ne_none (cues : List Cue) (reason : Halt) (stage : Stage) :
    (stage.performAll setting (cues ++ [.halt reason])).2 ≠ none := by
  rw [performAll_append]
  rcases stage.performAll setting cues with ⟨ended, _ | halt⟩ <;> exact nofun

/-- A wait for a text that is not there always comes to a halt. -/
theorem executeRecord_wait_ne_none {text : Text} {timeout : Number}
    (hparsed : Step.ofRecord record = .ok (.waitFor text timeout))
    (habsent : Text.occursIn text stage.session.buffer = false) :
    (stage.executeRecord setting record).2 ≠ none := by
  simp only [executeRecord, hparsed, execute, Step.cues, Session.waiting, habsent,
    Bool.false_eq_true, if_false]
  split
  · exact performAll_halt_ne_none [.hold Session.pollInterval stage.session] .endless stage
  · exact performAll_halt_ne_none _ _ stage

end Stage

namespace Course

variable {setting : Setting} {stage next raised : Stage} {record : Json} {rest records : List Json}
  {result : Stage × Option Halt} {halt : Halt}

theorem pass_of_step {step : Step} (hparsed : Step.ofRecord record = .ok step)
    (hstep : ∀ text timeout, step ≠ .waitFor text timeout) :
    pass setting (start stage (record :: rest))
      = .inl ⟨stage, step.cues setting.commands stage.session, none, rest⟩ := by
  cases step with
  | waitFor text timeout => exact absurd rfl (hstep text timeout)
  | _ => simp only [pass, start, takeUp, hparsed]

theorem pass_of_wait {text : Text} {timeout : Number}
    (hparsed : Step.ofRecord record = .ok (.waitFor text timeout)) :
    pass setting (start stage (record :: rest)) = .inl (waiting stage text timeout 0 rest) := by
  simp only [pass, start, takeUp, hparsed, waiting]

/-- A record that is performed brings the course to the next one. -/
theorem yields_of_executeRecord (h : stage.executeRecord setting record = (next, none)) :
    (start stage (record :: rest)).Yields setting result ↔
      (start next rest).Yields setting result := by
  cases hparsed : Step.ofRecord record with
  | error error =>
      rw [Stage.executeRecord, hparsed] at h
      cases h
  | ok step =>
      have hcues := h
      rw [Stage.executeRecord_of_step hparsed] at hcues
      by_cases hstep : ∃ text timeout, step = .waitFor text timeout
      · obtain ⟨text, timeout, rfl⟩ := hstep
        cases hpresent : Text.occursIn text stage.session.buffer with
        | true =>
            rw [Step.cues, Session.waiting, hpresent, if_pos rfl, Stage.performAll_nil] at hcues
            obtain rfl : stage = next := (Prod.mk.inj hcues).1
            rw [yields_of_inl (pass_of_wait hparsed), yields_of_present hpresent]
        | false =>
            have hhalts : (stage.executeRecord setting record).2 ≠ none :=
              Stage.executeRecord_wait_ne_none hparsed hpresent
            rw [h] at hhalts
            exact absurd rfl hhalts
      · push Not at hstep
        rw [yields_of_inl (pass_of_step hparsed hstep), yields_of_performed hcues]
        rfl

/-- A record that halts brings the course to its end, unless it waits without a bound. -/
theorem yields_of_executeRecord_halts
    (h : stage.executeRecord setting record = (raised, some halt))
    (hbound : ∀ text timeout, Step.ofRecord record = .ok (.waitFor text timeout) →
      Text.occursIn text stage.session.buffer = false → ¬timeout.Boundless) :
    (start stage (record :: rest)).Yields setting result ↔ (raised, some halt) = result := by
  cases hparsed : Step.ofRecord record with
  | error error =>
      rw [Stage.executeRecord, hparsed] at h
      refine yields_of_inr ?_
      simp only [pass, start, takeUp, hparsed, ← h]
  | ok step =>
      have hcues := h
      rw [Stage.executeRecord_of_step hparsed] at hcues
      by_cases hstep : ∃ text timeout, step = .waitFor text timeout
      · obtain ⟨text, timeout, rfl⟩ := hstep
        rw [yields_of_inl (pass_of_wait hparsed)]
        rw [Step.cues, Session.waiting] at hcues
        cases hpresent : Text.occursIn text stage.session.buffer with
        | true =>
            rw [hpresent, if_pos rfl] at hcues
            cases hcues
        | false =>
            rw [hpresent, if_neg Bool.false_ne_true] at hcues
            cases hsteps : timeout.stepsToReach Session.pollInterval with
            | none =>
                have hboundless := Number.stepsToReach_eq_none_iff.mp hsteps
                exact absurd hboundless (hbound text timeout hparsed hpresent)
            | some count =>
                rw [hsteps] at hcues
                have hwait : (waiting stage text timeout (0 * Session.pollInterval) rest).Yields
                    setting result ↔ _ :=
                  yields_of_stepsToReach hsteps hpresent count 0 (Nat.zero_add _)
                rw [Nat.zero_mul] at hwait
                rw [hwait]
                exact Eq.congr_left hcues
      · push Not at hstep
        rw [yields_of_inl (pass_of_step hparsed hstep), yields_of_halted hcues]

/-- Without waits that have no bound, the course of a replay leads to what its cues lead to. -/
theorem yields_iff_performRecords
    (hbound : ∀ now text timeout, ArrivesAt setting stage records now text timeout →
      ¬timeout.Boundless) :
    (start stage records).Yields setting result ↔
      stage.performRecords setting records = result := by
  induction records generalizing stage with
  | nil => exact yields_of_inr rfl
  | cons record rest ih =>
      rw [Stage.performRecords_cons]
      rcases hrecord : stage.executeRecord setting record with ⟨next, _ | halt⟩
      · rw [yields_of_executeRecord hrecord, Stage.andThen_none]
        exact ih fun now text timeout harrives =>
          hbound now text timeout (.later hrecord harrives)
      · rw [Stage.andThen_some]
        exact yields_of_executeRecord_halts hrecord fun text timeout hparsed habsent =>
          hbound stage text timeout (.here hparsed habsent)

/-- A replay ends exactly if every wait without a bound that it arrives at is halted. -/
theorem exists_yields_iff :
    (∃ result, (start stage records).Yields setting result) ↔
      ∀ now text timeout, ArrivesAt setting stage records now text timeout → timeout.Boundless →
        ∃ count, (polls setting now count).2 ≠ none := by
  induction records generalizing stage with
  | nil => exact iff_of_true ⟨_, yields_of_inr rfl |>.mpr rfl⟩ fun _ _ _ harrives => nomatch harrives
  | cons record rest ih =>
      by_cases hwait : ∃ text timeout, Step.ofRecord record = .ok (.waitFor text timeout) ∧
        Text.occursIn text stage.session.buffer = false ∧ timeout.Boundless
      · -- this record decides, because nothing comes after a wait without a bound
        obtain ⟨text, timeout, hparsed, habsent, hboundless⟩ := hwait
        simp only [yields_of_inl (pass_of_wait hparsed)]
        rw [exists_yields_iff_polls hboundless habsent]
        constructor
        · rintro hpolls now text' timeout' (⟨-, -⟩ | ⟨hperformed, -⟩) -
          · exact hpolls
          · have hhalts : (stage.executeRecord setting record).2 ≠ none :=
              Stage.executeRecord_wait_ne_none hparsed habsent
            rw [hperformed] at hhalts
            exact absurd rfl hhalts
        · intro hall
          exact hall stage text timeout (.here hparsed habsent) hboundless
      · push Not at hwait
        rcases hrecord : stage.executeRecord setting record with ⟨next, _ | halt⟩
        · simp only [yields_of_executeRecord hrecord]
          rw [ih]
          constructor
          · rintro hall now text timeout (⟨hparsed, habsent⟩ | ⟨hperformed, harrives⟩) hboundless
            · exact absurd hboundless (hwait text timeout hparsed habsent)
            · rw [hrecord] at hperformed
              obtain rfl := (Prod.mk.inj hperformed).1
              exact hall now text timeout harrives hboundless
          · intro hall now text timeout harrives
            exact hall now text timeout (.later hrecord harrives)
        · refine iff_of_true ⟨_, (yields_of_executeRecord_halts hrecord hwait).mpr rfl⟩ ?_
          rintro now text timeout (⟨hparsed, habsent⟩ | ⟨hperformed, -⟩) hboundless
          · exact absurd hboundless (hwait text timeout hparsed habsent)
          · rw [hrecord] at hperformed
            cases hperformed

end Course

end Screencast
