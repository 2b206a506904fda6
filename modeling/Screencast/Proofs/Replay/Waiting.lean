import Screencast.Proofs.Number.Shortest
import Screencast.Proofs.Replay.Course
import Screencast.Proofs.Replay.Holding

/-!
# Waiting for a text

Whether a wait is over is decided when it begins: looking at the screen does not change it, so a text that
is not there then does not appear.  `Polled` is what holds after some looks, and `WaitsOut` lists how a wait
for a text that is not there ends.  `waitFor_decided` says how many looks that are, and that the loop which
looks and compares comes to the same.
-/

namespace Screencast

theorem Text.occursIn_iff {α : Type} [DecidableEq α] (part text : List α) :
    Text.occursIn part text = true ↔ part <:+: text := by
  induction text with
  | nil => rw [occursIn, List.isEmpty_iff, List.infix_nil]
  | cons c rest ih =>
      rw [occursIn, Bool.or_eq_true, List.isPrefixOf_iff_prefix, ih, List.infix_cons_iff]

namespace Number

/-- The value of a finite quantity. -/
def value? : Number → Option ℚ
  | .int n => some n
  | .real (.finite negative m e) => some (if negative then -(m * 2 ^ e) else m * 2 ^ e)
  | .real (.infinite _) | .real .nan => none

variable {quantity : Number} {value : ℚ}

theorem not_boundless_of_value (h : quantity.value? = some value) : ¬quantity.Boundless := by
  rintro (rfl | rfl) <;> cases h

/-- A sum reaches a finite quantity if it is not below its value. -/
theorem reachedBy_iff_value_le (h : quantity.value? = some value) (sum : Nat) :
    quantity.reachedBy sum = true ↔ value ≤ sum := by
  match quantity with
  | .int n =>
      obtain rfl := Option.some.inj h
      rw [reachedBy, decide_eq_true_eq]
      exact_mod_cast Iff.rfl
  | .real (.finite true m e) =>
      obtain rfl := Option.some.inj h
      have hnegative : -((m : ℚ) * 2 ^ e) ≤ sum := by
        have hpositive : (0 : ℚ) ≤ m * 2 ^ e := by positivity
        have hsum : (0 : ℚ) ≤ sum := Nat.cast_nonneg sum
        linarith
      exact iff_of_true rfl hnegative
  | .real (.finite false m e) =>
      obtain rfl := Option.some.inj h
      have hden : (0 : ℚ) < (Binary64.magnitude m e).2 := by
        exact_mod_cast Binary64.magnitude_den_pos m e
      simp only [reachedBy, Bool.false_or, decide_eq_true_eq, Bool.false_eq_true, if_false]
      rw [← Binary64.magnitude_ratio, div_le_iff₀ hden]
      exact_mod_cast Iff.rfl

end Number

namespace Stage

variable {setting : Setting}

/-- The time between two looks at the screen. -/
theorem held_poll (setting : Setting) (stage : Stage) :
    Held setting (.int Session.pollInterval) stage
      (stage.perform setting (.hold Session.pollInterval stage.session)) :=
  held_advance ⟨_, rfl⟩ stage

end Stage

open Stage

/-- A stage on which the screen was looked at so many times: the session is the same, and each look is some
frames of it and a pause. -/
structure Polled (setting : Setting) (before : Stage) (count : Nat) (after : Stage) : Prop where
  polls : Course.polls setting before count = (after, none)
  session : after.session = before.session
  continues : Continues setting.config before
    (List.replicate (count * setting.config.ticks (.int Session.pollInterval)) before.session.buffer)
    (List.replicate count (setting.pacing.rests (.int Session.pollInterval))).flatten after

variable {setting : Setting} {before after : Stage} {count : Nat}

theorem Course.polls_concat (setting : Setting) (stage : Stage) (count : Nat) :
    Course.polls setting stage (count + 1)
      = andThen (Course.polls setting stage count)
          (perform setting (.hold Session.pollInterval stage.session)) := by
  rw [polls, List.replicate_succ', performAll_append]
  exact congrArg (andThen _) (funext (performAll_singleton setting _))

/-- One more look. -/
theorem Polled.concat {next : Stage} (h : Polled setting before count after)
    (hlook : after.perform setting (.hold Session.pollInterval before.session) = (next, none)) :
    Polled setting before (count + 1) next where
  polls := by rw [Course.polls_concat, h.polls, andThen_none, hlook]
  session := by
    have hsession := session_perform setting (.hold Session.pollInterval before.session) after
    rwa [hlook] at hsession
  continues := by
    have hheld := held_poll setting after
    rw [h.session, hlook] at hheld
    have hmore := h.continues.trans hheld.continues
    rwa [h.session, List.replicate_append_replicate, ← Nat.succ_mul, ← List.flatten_concat,
      ← List.replicate_succ'] at hmore

/-- The screen is looked at as often as called for, unless one of the looks is halted. -/
theorem exists_polled (setting : Setting) (before : Stage) (count : Nat) :
    (∃ after, Polled setting before count after) ∨
      ∃ done after last halt, done < count ∧ Polled setting before done after ∧
        Held setting (.int Session.pollInterval) after (last, some halt) ∧
        last.session = before.session ∧ Course.polls setting before count = (last, some halt) := by
  induction count with
  | zero => exact .inl ⟨before, rfl, rfl, by rw [Nat.zero_mul]; exact .of_eq rfl rfl rfl⟩
  | succ count ih =>
      rw [Course.polls_concat]
      rcases ih with ⟨after, hpolled⟩ | ⟨done, after, last, halt, hdone, hpolled, hheld, hsession,
        hlast⟩
      · have hheld := held_poll setting after
        have hsame := session_perform setting (.hold Session.pollInterval before.session) after
        rw [hpolled.session] at hheld
        rw [hpolled.polls, andThen_none]
        rcases hlook : after.perform setting (.hold Session.pollInterval before.session) with
          ⟨next, _ | halt⟩
        · exact .inl ⟨next, hpolled.concat hlook⟩
        · rw [hlook] at hheld hsame
          exact .inr ⟨count, after, next, halt, Nat.lt_succ_self count, hpolled, hheld, hsame, rfl⟩
      · rw [hlast, andThen_some]
        exact .inr ⟨done, after, last, halt, Nat.lt_succ_of_lt hdone, hpolled, hheld, hsession, rfl⟩

/-- How a wait for a text that is not on the screen ends. -/
inductive WaitsOut (setting : Setting) (text : Text) (before : Stage) (polls : Nat) :
    Stage × Option Halt → Prop
  /-- The time has run out. -/
  | timedOut {after : Stage} (polled : Polled setting before polls after) :
      WaitsOut setting text before polls (after, some (.failed (.timeout text)))
  /-- One of the looks is halted: it cannot be shown or recorded, or the user interrupts its pause. -/
  | halted {done : Nat} {after last : Stage} {halt : Halt} (early : done < polls)
      (polled : Polled setting before done after)
      (held : Held setting (.int Session.pollInterval) after (last, some halt))
      (session : last.session = before.session) :
      WaitsOut setting text before polls (last, some halt)

theorem waitsOut_performAll (setting : Setting) (text : Text) (before : Stage) (polls : Nat) :
    WaitsOut setting text before polls
      (before.performAll setting (List.replicate polls (.hold Session.pollInterval before.session)
        ++ [.halt (.failed (.timeout text))])) := by
  have hpolls : before.performAll setting
      (List.replicate polls (.hold Session.pollInterval before.session))
        = Course.polls setting before polls := rfl
  rw [performAll_append, hpolls]
  rcases exists_polled setting before polls with ⟨after, hpolled⟩ | ⟨done, after, last, halt, hdone,
    hpolled, hheld, hsession, hlast⟩
  · rw [hpolled.polls, andThen_none]
    exact .timedOut hpolled
  · rw [hlast, andThen_some]
    exact .halted hdone hpolled hheld hsession

/-- Nothing but the time ends a wait if no look is disturbed. -/
theorem WaitsOut.exists_polled {text : Text} {polls : Nat} {result : Stage × Option Halt}
    (h : WaitsOut setting text before polls result) (hclear : setting.Clear)
    (hlasts : setting.config.Lasts (.int Session.pollInterval)) :
    ∃ after, Polled setting before polls after ∧ result = (after, some (.failed (.timeout text))) := by
  cases h with
  | @timedOut after polled => exact ⟨after, polled, rfl⟩
  | halted early polled held session =>
      obtain ⟨last, hlast⟩ := held.exists_eq_none hclear hlasts
      cases hlast

/-- What waiting for a text comes to, with a finite bound in milliseconds. -/
structure Waits (setting : Setting) (stage : Stage) (text : Text) (bound : ℚ)
    (result : Stage × Option Halt) : Prop where
  present : text <:+: stage.session.buffer → result = (stage, none)
  /-- The number of looks is the least one whose time is not below the bound. -/
  absent : ¬text <:+: stage.session.buffer → ∃ polls,
    (∀ k : Nat, bound ≤ (k * Session.pollInterval : Nat) ↔ polls ≤ k) ∧
      WaitsOut setting text stage polls result ∧
      (setting.Clear → setting.config.Lasts (.int Session.pollInterval) →
        ∃ after, Polled setting stage polls after ∧
          result = (after, some (.failed (.timeout text))))

/-- A wait with a finite bound is decided when it begins, and so is the number of looks that it takes; the
loop of looks comes to the same result. -/
theorem waitFor_decided {timeout : Number} {bound : ℚ} (hbound : timeout.value? = some bound)
    (setting : Setting) (stage : Stage) (text : Text) :
    Waits setting stage text bound (stage.execute setting (.waitFor text timeout)) ∧
      (Course.waiting stage text timeout 0 []).Yields setting
        (stage.execute setting (.waitFor text timeout)) := by
  have hexecute : stage.execute setting (.waitFor text timeout)
      = stage.performAll setting (stage.session.waiting text timeout) := rfl
  rw [hexecute, Session.waiting]
  cases hoccurs : Text.occursIn text stage.session.buffer with
  | true =>
      have hpresent := (Text.occursIn_iff _ _).mp hoccurs
      refine ⟨⟨fun _ => rfl, fun habsent => absurd hpresent habsent⟩, ?_⟩
      rw [Course.yields_of_present hoccurs]
      exact (Course.yields_of_inr rfl).mpr rfl
  | false =>
      have habsent : ¬text <:+: stage.session.buffer := by
        rw [← Text.occursIn_iff, hoccurs]
        exact Bool.false_ne_true
      cases hsteps : timeout.stepsToReach Session.pollInterval with
      | none =>
          exact absurd (Number.stepsToReach_eq_none_iff.mp hsteps) (Number.not_boundless_of_value hbound)
      | some polls =>
          have hout := waitsOut_performAll setting text stage polls
          refine ⟨⟨fun hpresent => absurd hpresent habsent,
            fun _ => ⟨polls, fun k => ?_, hout, hout.exists_polled⟩⟩, ?_⟩
          · rw [← Number.reachedBy_iff_value_le hbound]
            exact Number.reachedBy_iff_of_stepsToReach (by decide) hsteps k
          · exact (Course.yields_of_stepsToReach hsteps hoccurs polls 0 (Nat.zero_add polls)).mpr rfl

/-- Half a second more than one look takes two looks. -/
theorem waitFor_decided_twoLooks :
    (Number.int 1500).value? = some 1500 ∧
      ((Stage.initial (.ofSeed 0)).execute (quietSetting usualConfig)
        (.waitFor "x" (.int 1500))).1.frames.size = 2 * 30 ∧
      Waits (quietSetting usualConfig) (Stage.initial (.ofSeed 0)) "x" 1500
        ((Stage.initial (.ofSeed 0)).execute (quietSetting usualConfig) (.waitFor "x" (.int 1500))) := by
  have hbound : (Number.int 1500).value? = some 1500 := rfl
  refine ⟨hbound, ?_, (waitFor_decided hbound _ _ _).1⟩
  decide +kernel

/-- Where the cursor has no phase, a wait of one millisecond does not run out: it is halted before anything
is recorded. -/
theorem waitFor_unprojected :
    hugeBlink.frameCount (.int Session.pollInterval) = .ok 30 ∧
      ((Stage.initial (.ofSeed 0)).execute (quietSetting hugeBlink) (.waitFor "x" (.int 1))).1.frames.size
        = 0 := by
  decide +kernel

end Screencast
