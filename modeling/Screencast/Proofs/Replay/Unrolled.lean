import Screencast.Proofs.Replay.Compose
import Screencast.Proofs.Replay.Endings
import Screencast.Proofs.Replay.Mirror

/-!
# Replays with waits that have no bound

A replay under way performs the cues of its script, except that a wait without a bound looks at the screen
as often as it takes until something halts it.  `Course.exists_unrolls` gives the cues that it performs, so
that whatever holds for all cues holds for it: its frames are a log (`Course.log_of_ends`) and the preview
mirrors the terminal (`Course.mirrored_of_ends`), though a look long after the first one is interrupted or
fails.  `Course.ends_append_cases` cuts it at a record.
-/

namespace Screencast

/-- The cues of a replay that comes to a result: those of its script, or those up to a wait without a bound
and then so many looks at the screen. -/
inductive Unrolls (commands : Commands) (session : Session) (records : List Json) : List Cue → Prop
  | sheet : Unrolls commands session records (cueSheet commands session records)
  | looks (done rest : List Json) (record : Json) (text : Text) (timeout : Number) (count : Nat)
      (split : records = done ++ record :: rest)
      (parsed : Step.ofRecord record = .ok (.waitFor text timeout)) (boundless : timeout.Boundless) :
      Unrolls commands session records (cueSheet commands session done ++ List.replicate count
        (.hold Session.pollInterval (session.after (cueSheet commands session done))))

namespace Unrolls

variable {commands : Commands} {session : Session} {records : List Json} {cues : List Cue}

/-- A record that is performed comes before the cues of the others. -/
theorem cons (record : Json)
    (h : Unrolls commands (session.after (recordCues commands session record)) records cues) :
    Unrolls commands session (record :: records) (recordCues commands session record ++ cues) := by
  cases h with
  | sheet => exact .sheet
  | looks done rest wait text timeout count split parsed boundless =>
      have hdone : cueSheet commands session (record :: done)
          = recordCues commands session record
            ++ cueSheet commands (session.after (recordCues commands session record)) done := rfl
      have hlooks : Unrolls commands session (record :: records) _ :=
        .looks (record :: done) rest wait text timeout count (by rw [split, List.cons_append]) parsed
          boundless
      rw [hdone, Session.after_append, List.append_assoc] at hlooks
      exact hlooks

/-- Looking at the screen does not change it. -/
theorem turnsUnseen (h : Unrolls commands session records cues) : TurnsUnseen session cues := by
  cases h with
  | sheet => exact turnsUnseen_cueSheet commands session records
  | looks done rest record text timeout count split parsed boundless =>
      refine turnsUnseen_append (turnsUnseen_cueSheet commands session done)
        (turnsUnseen_of_forall (fun cue hcue => ?_) _)
      rw [List.eq_of_mem_replicate hcue]
      trivial

end Unrolls

namespace Course

variable {setting : Setting} {stage ended raised : Stage} {first second records rest : List Json}
  {record : Json} {result other : Stage × Option Halt} {halt : Halt}

/-- A record at which a replay looks at the screen until something halts it. -/
def WaitsBoundlessly (stage : Stage) (record : Json) : Prop :=
  ∃ text timeout, Step.ofRecord record = .ok (.waitFor text timeout) ∧
    Text.occursIn text stage.session.buffer = false ∧ timeout.Boundless

/-- A replay comes to one result only. -/
theorem Yields.unique {course : Course} (h : course.Yields setting result)
    (h' : course.Yields setting other) : result = other := by
  obtain ⟨passes, hresult⟩ := h
  induction passes generalizing course with
  | zero => cases hresult
  | succ passes ih =>
      cases hpass : course.pass setting with
      | inl next =>
          rw [result?, hpass] at hresult
          exact ih ((yields_of_inl hpass).mp h') hresult
      | inr last =>
          rw [result?, hpass] at hresult
          exact (Option.some.inj hresult).symm.trans ((yields_of_inr hpass).mp h')

/-! ## The cues that are performed -/

/-- A replay comes to what its cues come to, with as many looks at the screen as it takes. -/
theorem exists_unrolls (h : (start stage records).Yields setting result) :
    ∃ cues, Unrolls setting.commands stage.session records cues ∧
      stage.performAll setting cues = result := by
  induction records generalizing stage with
  | nil => exact ⟨_, .sheet, (yields_of_inr rfl).mp h⟩
  | cons record rest ih =>
      by_cases hwait : WaitsBoundlessly stage record
      · obtain ⟨text, timeout, hparsed, habsent, hboundless⟩ := hwait
        rw [yields_of_inl (pass_of_wait hparsed), yields_iff_polls hboundless habsent] at h
        obtain ⟨count, hpolls, -⟩ := h
        exact ⟨_, .looks [] rest record text timeout count rfl hparsed hboundless, hpolls⟩
      · rcases hrecord : stage.executeRecord setting record with ⟨next, _ | halt⟩
        · obtain ⟨cues, hunrolls, hcues⟩ := ih ((yields_of_executeRecord hrecord).mp h)
          rw [Stage.executeRecord_eq_performAll] at hrecord
          rw [Stage.session_performAll setting hrecord] at hunrolls
          refine ⟨_, hunrolls.cons record, ?_⟩
          rw [Stage.performAll_append, hrecord, Stage.andThen_none, hcues]
        · have hbound : ∀ text timeout, Step.ofRecord record = .ok (.waitFor text timeout) →
              Text.occursIn text stage.session.buffer = false → ¬timeout.Boundless :=
            fun text timeout hparsed habsent hboundless =>
              hwait ⟨text, timeout, hparsed, habsent, hboundless⟩
          refine ⟨_, .sheet, ?_⟩
          rw [← Stage.performRecords_eq_performAll, Stage.performRecords_cons, hrecord,
            Stage.andThen_some]
          exact (yields_of_executeRecord_halts hrecord hbound).mp h

/-! ## How a replay under way ends -/

/-- A replay under way comes to its end in this way. -/
def Ends (setting : Setting) (stage : Stage) (records : List Json) (replayed : Stage × Outcome) : Prop :=
  ∃ result, (start stage records).Yields setting result ∧ Stage.close setting result = replayed

theorem Yields.ends_iff (h : (start stage records).Yields setting result) (replayed : Stage × Outcome) :
    Ends setting stage records replayed ↔ Stage.close setting result = replayed := by
  constructor
  · rintro ⟨other, hother, rfl⟩
    rw [h.unique hother]
  · intro hclose
    exact ⟨result, h, hclose⟩

/-- Without waits that have no bound, a replay under way ends as its run does. -/
theorem ends_iff_run (hbound : ∀ now text timeout, ArrivesAt setting stage records now text timeout →
    ¬timeout.Boundless) (replayed : Stage × Outcome) :
    Ends setting stage records replayed ↔ stage.run setting records = replayed := by
  simp only [Ends, yields_iff_performRecords hbound, Stage.run_eq_close, exists_eq_left']

/-- What it means that the frames of a replay under way are a log. -/
structure Log (setting : Setting) (stage : Stage) (records : List Json) (replayed : Stage × Outcome) :
    Prop where
  /-- It adds a first part of the film of the cues that it performs, and then the buffer with the error if
  it shows one. -/
  run : ∃ cues shots events, Unrolls setting.commands stage.session records cues ∧
    Stage.Extends setting.config stage events replayed.1 ∧
    recordedBuffers events = shots ++ replayed.2.errorFilm replayed.1.session ∧
    shots <+: film setting.config stage.rhythm cues
  /-- The end delay adds the last buffer again. -/
  delay : Stage.Films setting.config replayed.1
    (List.replicate (setting.config.ticks (.int setting.config.endDelay)) replayed.1.session.buffer)
    (Stage.haltOf (replayed.1.elapse setting.config .immediate (.int setting.config.endDelay)))
  /-- Rendering adds nothing. -/
  recording : ∀ tools path disk, (Recording.conclude setting tools path disk replayed).stage.frames
    = (Recording.held setting replayed).frames

variable {replayed : Stage × Outcome}

theorem log_of_ends (h : Ends setting stage records replayed) : Log setting stage records replayed := by
  refine ⟨?_, Stage.elapseViews_films setting.config .immediate _ rfl,
    fun tools path disk => Recording.frames_conclude setting tools path disk replayed⟩
  obtain ⟨_, hyields, rfl⟩ := h
  obtain ⟨cues, hunrolls, rfl⟩ := exists_unrolls hyields
  obtain ⟨shots, events, hextends, hrecorded, hfirst, -⟩ := Stage.close_extends setting cues stage
  exact ⟨cues, shots, events, hunrolls, hextends, hrecorded, hfirst⟩

/-- The preview is never stale in a replay under way, with a preview that works. -/
theorem mirrored_of_ends (hpreview : ∀ frame, setting.preview frame = none)
    (h : Ends setting stage records replayed) :
    ∃ cues, Unrolls setting.commands stage.session records cues ∧
      EndsMirrored setting stage cues replayed := by
  obtain ⟨_, hyields, rfl⟩ := h
  obtain ⟨cues, hunrolls, rfl⟩ := exists_unrolls hyields
  exact ⟨cues, hunrolls, Stage.endsMirrored_close hpreview hunrolls.turnsUnseen⟩

/-! ## Joined scripts -/

/-- A replay of a record and others comes to what the others come to, unless the record halts it. -/
theorem yields_cons : (start stage (record :: rest)).Yields setting result ↔
    (∃ next, (start stage [record]).Yields setting (next, none) ∧
      (start next rest).Yields setting result) ∨
    result.2 ≠ none ∧ (start stage [record]).Yields setting result := by
  by_cases hwait : WaitsBoundlessly stage record
  · obtain ⟨text, timeout, hparsed, habsent, hboundless⟩ := hwait
    simp only [yields_of_inl (pass_of_wait hparsed), yields_iff_polls hboundless habsent]
    constructor
    · rintro ⟨count, hpolls, hhalts⟩
      exact .inr ⟨hhalts, count, hpolls, hhalts⟩
    · rintro (⟨next, ⟨count, -, hhalts⟩, -⟩ | ⟨hhalts, count, hpolls, -⟩)
      · exact absurd rfl hhalts
      · exact ⟨count, hpolls, hhalts⟩
  · rcases hrecord : stage.executeRecord setting record with ⟨next, _ | halt⟩
    · have hone : ∀ result, (start stage [record]).Yields setting result ↔ (next, none) = result :=
        fun result => (yields_of_executeRecord hrecord).trans (yields_of_inr rfl)
      rw [yields_of_executeRecord hrecord]
      simp only [hone, Prod.mk.injEq, and_true, exists_eq_left']
      refine ⟨.inl, fun h => h.elim id ?_⟩
      rintro ⟨hhalts, rfl⟩
      exact absurd rfl hhalts
    · have hbound : ∀ text timeout, Step.ofRecord record = .ok (.waitFor text timeout) →
          Text.occursIn text stage.session.buffer = false → ¬timeout.Boundless :=
        fun text timeout hparsed habsent hboundless =>
          hwait ⟨text, timeout, hparsed, habsent, hboundless⟩
      simp only [yields_of_executeRecord_halts hrecord hbound, Prod.mk.injEq, reduceCtorEq, and_false,
        false_and, exists_false, false_or]
      refine ⟨?_, And.right⟩
      rintro rfl
      exact ⟨Option.some_ne_none halt, rfl⟩

/-- A replay of two scripts comes to what the second one comes to, unless the first one is halted. -/
theorem yields_append : (start stage (first ++ second)).Yields setting result ↔
    (∃ ended, (start stage first).Yields setting (ended, none) ∧
      (start ended second).Yields setting result) ∨
    result.2 ≠ none ∧ (start stage first).Yields setting result := by
  induction first generalizing stage with
  | nil =>
      have hend : ∀ result, (start stage []).Yields setting result ↔ (stage, none) = result :=
        fun result => yields_of_inr rfl
      simp only [List.nil_append, hend, Prod.mk.injEq, and_true, exists_eq_left']
      refine ⟨.inl, fun h => h.elim id ?_⟩
      rintro ⟨hhalts, rfl⟩
      exact absurd rfl hhalts
  | cons record rest ih =>
      rw [List.cons_append, yields_cons]
      constructor
      · rintro (⟨next, hrecord, hrest⟩ | ⟨hhalts, hrecord⟩)
        · rcases ih.mp hrest with ⟨ended, hended, hsecond⟩ | ⟨hhalts, hrest⟩
          · exact .inl ⟨ended, yields_cons.mpr (.inl ⟨next, hrecord, hended⟩), hsecond⟩
          · exact .inr ⟨hhalts, yields_cons.mpr (.inl ⟨next, hrecord, hrest⟩)⟩
        · exact .inr ⟨hhalts, yields_cons.mpr (.inr ⟨hhalts, hrecord⟩)⟩
      · rintro (⟨ended, hfirst, hsecond⟩ | ⟨hhalts, hfirst⟩)
        · rcases yields_cons.mp hfirst with ⟨next, hrecord, hrest⟩ | ⟨hhalts, -⟩
          · exact .inl ⟨next, hrecord, ih.mpr (.inl ⟨ended, hrest, hsecond⟩)⟩
          · exact absurd rfl hhalts
        · rcases yields_cons.mp hfirst with ⟨next, hrecord, hrest⟩ | hrecord
          · exact .inl ⟨next, hrecord, ih.mpr (.inr ⟨hhalts, hrest⟩)⟩
          · exact .inr hrecord

/-- The record with this index is the one that halts a replay under way, on this stage. -/
def HaltsAt (setting : Setting) (stage : Stage) (records : List Json) (index : Nat) (raised : Stage)
    (halt : Halt) : Prop :=
  ∃ record now, records[index]? = some record ∧
    (start stage (records.take index)).Yields setting (now, none) ∧
    (start now [record]).Yields setting (raised, some halt)

variable {index : Nat} {failure : Failure}

namespace HaltsAt

theorem yields_take (h : HaltsAt setting stage records index raised halt) :
    (start stage (records.take (index + 1))).Yields setting (raised, some halt) := by
  obtain ⟨record, now, hrecord, hnow, hraised⟩ := h
  rw [List.take_add_one, hrecord, Option.toList_some]
  exact yields_append.mpr (.inl ⟨now, hnow, hraised⟩)

/-- The records behind the one that halts have no effect. -/
theorem yields_append (h : HaltsAt setting stage first index raised halt) (second : List Json) :
    (start stage (first ++ second)).Yields setting (raised, some halt) := by
  rw [← List.take_append_drop (index + 1) first, List.append_assoc]
  exact Course.yields_append.mpr (.inr ⟨Option.some_ne_none halt, h.yields_take⟩)

theorem ends_iff (h : HaltsAt setting stage first index raised halt) (second : List Json) :
    Ends setting stage (first ++ second) replayed ↔ raised.conclude setting halt = replayed :=
  (h.yields_append second).ends_iff replayed

end HaltsAt

/-- Joined scripts under way.  When the first one is performed, it is the second one on the stage that the
first one left.  A record that fails decides the end, though it be a wait that was halted after many
looks: those behind it do not matter, and the error is written to the terminal and recorded as one frame.
A record that is interrupted ends the replay in success, and nothing is written.  When the first one never
ends, neither do both. -/
theorem ends_append_cases (setting : Setting) (stage : Stage) (first second : List Json) :
    (∀ ended, (start stage first).Yields setting (ended, none) → ∀ replayed,
      Ends setting stage (first ++ second) replayed ↔ Ends setting ended second replayed) ∧
    (∀ index raised failure, HaltsAt setting stage first index raised (.failed failure) →
      (∀ replayed, Ends setting stage (first ++ second) replayed ↔
        Ends setting stage (first.take (index + 1)) replayed) ∧
      ∀ frame, project setting.config (raised.session.buffer ++ ("\nERROR: " ++ failure.text))
          raised.frames.size = .ok frame → setting.preview frame = none →
        Ends setting stage (first ++ second) (raised.showingError failure frame, .failure)) ∧
    (∀ index raised, HaltsAt setting stage first index raised .interrupted →
      Ends setting stage (first ++ second)
        (raised.log "termreplay.replay" .info "Replay interrupted", .success)) ∧
    ((∀ replayed, ¬Ends setting stage first replayed) →
      ∀ replayed, ¬Ends setting stage (first ++ second) replayed) := by
  refine ⟨?completed, ?failed, ?interrupted, ?endless⟩
  case completed =>
    intro ended hfirst replayed
    have hboth : ∀ result, (start stage (first ++ second)).Yields setting result ↔
        (start ended second).Yields setting result := by
      intro result
      rw [yields_append]
      constructor
      · rintro (⟨other, hother, hsecond⟩ | ⟨hhalts, hother⟩)
        · cases hfirst.unique hother
          exact hsecond
        · cases hfirst.unique hother
          exact absurd rfl hhalts
      · exact fun hsecond => .inl ⟨ended, hfirst, hsecond⟩
    simp only [Ends, hboth]
  case failed =>
    intro index raised failure hhalts
    refine ⟨fun replayed => ?_, fun frame hframe hpreview => ?_⟩
    · have htaken : Ends setting stage (first.take (index + 1)) replayed ↔
          raised.conclude setting (.failed failure) = replayed :=
        hhalts.yields_take.ends_iff replayed
      rw [hhalts.ends_iff, htaken]
    · rw [hhalts.ends_iff]
      exact Stage.conclude_failed hframe hpreview
  case interrupted =>
    intro index raised hhalts
    rw [hhalts.ends_iff]
    rfl
  case endless =>
    rintro hnever replayed ⟨result, hyields, -⟩
    rcases yields_append.mp hyields with ⟨ended, hfirst, -⟩ | ⟨-, hfirst⟩
    · exact hnever _ ⟨_, hfirst, rfl⟩
    · exact hnever _ ⟨_, hfirst, rfl⟩

/-- A wait without a bound that is interrupted at its second look. -/
example :
    ((start default [waitRecord "x" (.real .nan)]).result?
      { quietSetting usualConfig with pacing := .realTime fun count => 40 ≤ count } 10).map
        (fun result => (result.1.frames.size, (Stage.close (quietSetting usualConfig) result).2.exitCode?))
      = some (60, some 0) := by
  decide +kernel

end Course

end Screencast
