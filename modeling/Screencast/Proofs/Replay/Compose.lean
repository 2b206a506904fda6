import Screencast.Proofs.Replay.FrameLog

/-!
# Runs of joined scripts

A run goes through its records one by one and keeps nothing but its stage, so scripts can be joined
and cut.  `run_append_cases` gives the run of two scripts, one after the other: when no record of the
first one halts, it is the second run on the stage that the first one left; otherwise the record at
which the first one halts decides, and nothing behind it has any effect.
-/

namespace Screencast.Stage

variable (setting : Setting)

/-- The first record to come to a halt is the one with this index, and this is the stage and the halt
that it came to. -/
def HaltsAt (stage : Stage) (records : List Json) (index : Nat) (raised : Stage) (halt : Halt) :
    Prop :=
  ∃ record now, records[index]? = some record ∧
    stage.performRecords setting (records.take index) = (now, none) ∧
    now.executeRecord setting record = (raised, some halt)

variable {setting} {stage raised : Stage} {records : List Json} {index : Nat} {halt : Halt}

/-- Performing records up to the one that halts. -/
theorem HaltsAt.performRecords_take (h : HaltsAt setting stage records index raised halt) :
    stage.performRecords setting (records.take (index + 1)) = (raised, some halt) := by
  obtain ⟨record, now, hrecord, hnow, hraised⟩ := h
  rw [List.take_add_one, hrecord, Option.toList_some, performRecords_append, hnow, andThen_none,
    performRecords_cons, hraised, andThen_some]

/-- The records behind the one that halts have no effect. -/
theorem HaltsAt.performRecords_append (h : HaltsAt setting stage records index raised halt)
    (rest : List Json) :
    stage.performRecords setting (records ++ rest) = (raised, some halt) := by
  rw [← List.take_append_drop (index + 1) records, List.append_assoc,
    Stage.performRecords_append, h.performRecords_take, andThen_some]

/-- Records that come to a halt come to it at one of them. -/
theorem exists_haltsAt (h : stage.performRecords setting records = (raised, some halt)) :
    ∃ index, HaltsAt setting stage records index raised halt := by
  induction records generalizing stage with
  | nil => cases h
  | cons record rest ih =>
      rw [performRecords_cons] at h
      rcases hrecord : stage.executeRecord setting record with ⟨next, _ | reason⟩
      · -- it is one of the others, at one place more
        rw [hrecord, andThen_none] at h
        obtain ⟨index, found, now, hfound, hnow, hraised⟩ := ih h
        refine ⟨index + 1, found, now, by rw [List.getElem?_cons_succ, hfound], ?_, hraised⟩
        rw [List.take_succ_cons, performRecords_cons, hrecord, andThen_none, hnow]
      · rw [hrecord, andThen_some] at h
        exact ⟨0, record, stage, rfl, rfl, hrecord.trans h⟩

/-- Records that are all performed do not halt. -/
theorem not_haltsAt {ended : Stage} (h : stage.performRecords setting records = (ended, none)) :
    ¬ HaltsAt setting stage records index raised halt := by
  intro hhalts
  have hrecords := hhalts.performRecords_append []
  rw [List.append_nil, h] at hrecords
  cases hrecords

/-- If no record halts, all of them are performed. -/
theorem performRecords_of_not_haltsAt
    (h : ∀ index raised halt, ¬ HaltsAt setting stage records index raised halt) :
    stage.performRecords setting records = ((stage.performRecords setting records).1, none) := by
  rcases hrecords : stage.performRecords setting records with ⟨ended, _ | reason⟩
  · rfl
  · obtain ⟨index, hhalts⟩ := exists_haltsAt hrecords
    exact absurd hhalts (h index ended reason)

/-! ## The error of a failed run -/

/-- A stage on which a failure is shown by this frame. -/
def showingError (failure : Failure) (frame : Frame) (stage : Stage) : Stage where
  session := stage.session.emit ("\nERROR: " ++ failure.text)
  frames := stage.frames.push frame
  rhythm := stage.rhythm
  journal := stage.journal
    |>.push (.logged ⟨"termreplay.replay", .error, "ERROR: " ++ failure.text⟩)
    |>.push (.shown frame)
    |>.push (.recorded (stage.session.buffer ++ ("\nERROR: " ++ failure.text)))

/-- Showing a session that can be projected, on a preview that works, records one frame. -/
theorem flash_of_project {frame : Frame}
    (hframe : project setting.config stage.session.buffer stage.frames.size = .ok frame)
    (hpreview : setting.preview frame = none) :
    stage.flash setting
      = ({ stage with
            frames := stage.frames.push frame
            journal := stage.journal.push (.shown frame) |>.push (.recorded stage.session.buffer) },
          none) := by
  have hview : (Frame.views setting.config stage.session.buffer).at setting.config
      stage.frames.size = .ok frame := hframe
  simp only [flash, showView, hview, hpreview, recordView, note]

/-- A failure is shown by one frame, the projection of the buffer with the error. -/
theorem conclude_failed {failure : Failure} {frame : Frame}
    (hframe : project setting.config (raised.session.buffer ++ ("\nERROR: " ++ failure.text))
      raised.frames.size = .ok frame)
    (hpreview : setting.preview frame = none) :
    raised.conclude setting (.failed failure) = (raised.showingError failure frame, .failure) := by
  have hflash : (raised.withError failure.text).flash setting = _ :=
    flash_of_project hframe hpreview
  simp only [conclude, abort_eq_flash, hflash]
  rfl

/-- Joined scripts.  Without a halt in the first one, its run and then the run of the second one give
the exit code and the stage of both.  A record that fails decides the run: those behind it do not
matter, the error is written to the terminal and recorded as one frame, and if it is the record that
is no step, the stage is that after the records before it.  A record that is interrupted ends the run
in success, and nothing is written. -/
theorem run_append_cases (setting : Setting) (stage : Stage) (first second : List Json) :
    ((∀ index raised halt, ¬ HaltsAt setting stage first index raised halt) →
      (stage.run setting first).2 = .success ∧
      stage.run setting (first ++ second) = (stage.run setting first).1.run setting second) ∧
    (∀ index raised failure, HaltsAt setting stage first index raised (.failed failure) →
      stage.run setting (first ++ second) = stage.run setting (first.take (index + 1)) ∧
      (∀ frame, project setting.config (raised.session.buffer ++ ("\nERROR: " ++ failure.text))
          raised.frames.size = .ok frame → setting.preview frame = none →
        stage.run setting (first ++ second) = (raised.showingError failure frame, .failure)) ∧
      ∀ record error, first[index]? = some record → Step.ofRecord record = .error error →
        stage.run setting (first.take index) = (raised, .success) ∧ failure = .step error) ∧
    ∀ index raised, HaltsAt setting stage first index raised .interrupted →
      stage.run setting (first ++ second)
        = (raised.log "termreplay.replay" .info "Replay interrupted", .success) := by
  refine ⟨?completed, ?failed, ?interrupted⟩
  case completed =>
    intro hnone
    have hfirst := performRecords_of_not_haltsAt hnone
    have hrun : stage.run setting first = ((stage.performRecords setting first).1, .success) := by
      rw [run_eq_conclude, hfirst]
    refine ⟨by rw [hrun], ?_⟩
    rw [hrun, run_eq_conclude, Stage.performRecords_append, hfirst, andThen_none, run_eq_conclude]
  case failed =>
    intro index raised failure hhalts
    have hjoined : stage.run setting (first ++ second) = raised.conclude setting (.failed failure) := by
      rw [run_eq_conclude, hhalts.performRecords_append]
    refine ⟨?_, ?_, ?_⟩
    · rw [hjoined, run_eq_conclude, hhalts.performRecords_take]
    · intro frame hframe hpreview
      rw [hjoined, conclude_failed hframe hpreview]
    · intro record error hrecord herror
      -- what is no step halts before anything of it is performed
      obtain ⟨found, now, hfound, hnow, hraised⟩ := hhalts
      obtain rfl : record = found := Option.some.inj (hrecord.symm.trans hfound)
      rw [executeRecord, herror] at hraised
      simp only [Prod.mk.injEq, Option.some.injEq, Halt.failed.injEq] at hraised
      obtain ⟨rfl, rfl⟩ := hraised
      exact ⟨by rw [run_eq_conclude, hnow], rfl⟩
  case interrupted =>
    intro index raised hhalts
    rw [run_eq_conclude, hhalts.performRecords_append]
    rfl

/-- A setting in which every command is interrupted when it is started. -/
def interrupting : Setting where
  config := { (default : Config) with fps := .int 2, lineCount := 3, cursorGlyph := .string "_" }
  commands := fun _ _ => .refused .interrupted
  pacing := .immediate
  preview := fun _ => none
  entropy := .ofSeed 0

/-- A script that types one letter. -/
def oneLetter : List Json := [.object [("action", .string "type"), ("payload", .string "l")]]

/-- The record of an action without a payload. -/
def bareRecord (action : String) : Json := .object [("action", .string action)]

/-- One letter, which is performed; then an action that does not exist, which fails and is shown; then
a return, which is interrupted. -/
theorem run_append_cases_oneLetter :
    ∃ typed raised,
      Stage.run interrupting oneLetter default = (typed, .success) ∧
      Stage.run interrupting (oneLetter ++ [bareRecord "enter"]) default
        = typed.run interrupting [bareRecord "enter"] ∧
      Stage.run interrupting (oneLetter ++ [bareRecord "jump"] ++ oneLetter) default
        = (typed.showingError (.step (.unknownAction (.string "jump")))
            ["l", "ERROR: Unknown action: jump_"], .failure) ∧
      HaltsAt interrupting default (oneLetter ++ [bareRecord "enter"]) 1 raised .interrupted ∧
      Stage.run interrupting (oneLetter ++ [bareRecord "enter"] ++ oneLetter) default
        = (raised.log "termreplay.replay" .info "Replay interrupted", .success) := by
  have hperformed : Stage.performRecords interrupting oneLetter default
      = ((Stage.performRecords interrupting oneLetter default).1, none) := rfl
  have hcompleted := (run_append_cases interrupting default oneLetter [bareRecord "enter"]).1
    fun _ _ _ => not_haltsAt hperformed
  have hfails : HaltsAt interrupting default (oneLetter ++ [bareRecord "jump"]) 1
      (Stage.performRecords interrupting oneLetter default).1
      (.failed (.step (.unknownAction (.string "jump")))) := ⟨_, _, rfl, rfl, rfl⟩
  have hinterrupted : HaltsAt interrupting default (oneLetter ++ [bareRecord "enter"]) 1 _
      .interrupted := ⟨_, _, rfl, rfl, rfl⟩
  refine ⟨(Stage.performRecords interrupting oneLetter default).1, _, rfl, hcompleted.2, ?_,
    hinterrupted, ?_⟩
  · exact ((run_append_cases interrupting default _ oneLetter).2.1 1 _ _ hfails).2.1 _ rfl rfl
  · exact (run_append_cases interrupting default _ oneLetter).2.2 1 _ hinterrupted

end Screencast.Stage
