import Screencast.Proofs.Replay.Moderate

/-!
# One script under different settings

What happens on the terminal does not depend on timing and display.  In a steady setting a run performs
the sheet of its script up to the first halt, and the sheet is made without the setting; the rhythm, the
frame rate and the screen only decide which frames are recorded.  `run_agrees` compares the runs of a
script in two steady settings.
-/

namespace Screencast

/-- How a run ends, if errors can be shown. -/
def Outcome.ofHalt : Option Halt → Outcome
  | none | some .interrupted => .success
  | some (.failed _) => .failure
  | some .endless => .endless

/-- The session at the end of a run: a failure is written to the terminal. -/
def Session.concluded (session : Session) : Option Halt → Session
  | some (.failed failure) => session.emit ("\nERROR: " ++ failure.text)
  | none | some .interrupted | some .endless => session

/-- Concluding a replay changes nothing else on stage, whether the failure can be shown or not. -/
theorem Stage.holds_conclude (setting : Setting) (stage : Stage) (halt : Halt) :
    Holds { stage with session := stage.session.concluded (some halt) }
      (stage.conclude setting halt).1 := by
  cases halt with
  | interrupted | endless => exact ⟨rfl, rfl⟩
  | failed failure =>
      obtain ⟨hsession, hrhythm⟩ := holds_flash setting (stage.withError failure.text)
      rw [← abort_eq_flash] at hsession hrhythm
      simp only [conclude]
      rcases habort : stage.abort setting failure.text with ⟨shown, _ | halt⟩ <;>
        rw [habort] at hsession hrhythm <;> exact ⟨hsession, hrhythm⟩

/-- Where everything can be shown, a replay ends as its halt says. -/
theorem Setting.Clear.conclude {setting : Setting} (h : setting.Clear) (stage : Stage)
    (halt : Halt) : (stage.conclude setting halt).2 = .ofHalt (some halt) := by
  cases halt with
  | interrupted | endless => rfl
  | failed failure =>
      obtain ⟨frame, hframe⟩ :=
        h.projects (stage.session.buffer ++ ("\nERROR: " ++ failure.text)) stage.frames.size
      rw [Stage.conclude_failed hframe (h.preview frame)]
      rfl

namespace Setting.Steady

variable {setting : Setting} (h : setting.Steady)

include h

/-- The outcome and the last session of a run are those of its sheet. -/
theorem run (records : List Json) (stage : Stage) :
    (stage.run setting records).2
        = .ofHalt (firstHalt? (cueSheet setting.commands stage.session records)) ∧
      (stage.run setting records).1.session
        = (stage.session.after (played (cueSheet setting.commands stage.session records))).concluded
            (firstHalt? (cueSheet setting.commands stage.session records)) := by
  obtain ⟨ended, hplayed, hall⟩ :=
    h.performAll (cueSheet_paced setting.commands stage.session records) stage
  rw [Stage.run_eq_conclude, Stage.performRecords_eq_performAll, hall,
    ← Stage.session_performAll setting hplayed]
  cases firstHalt? (cueSheet setting.commands stage.session records) with
  | none => exact ⟨rfl, rfl⟩
  | some halt =>
      exact ⟨h.clear.conclude ended halt, (Stage.holds_conclude setting ended halt).session⟩

/-- A run records the film of its sheet up to the first halt, and then the error that it shows, if it
shows one. -/
theorem run_extends (records : List Json) (stage : Stage) :
    ∃ events, Stage.Extends setting.config stage events (stage.run setting records).1 ∧
      recordedBuffers events
        = film setting.config stage.rhythm
            (played (cueSheet setting.commands stage.session records))
          ++ (stage.run setting records).2.errorFilm (stage.run setting records).1.session := by
  obtain ⟨ended, hplayed, hall⟩ :=
    h.performAll (cueSheet_paced setting.commands stage.session records) stage
  obtain ⟨events, hextends, -, hrecorded⟩ :=
    Stage.performAll_films setting (played (cueSheet setting.commands stage.session records)) stage
  rw [hplayed] at hextends hrecorded
  rw [Stage.run_eq_conclude, Stage.performRecords_eq_performAll, hall]
  cases firstHalt? (cueSheet setting.commands stage.session records) with
  | none => exact ⟨events, hextends, by rw [hrecorded rfl, Outcome.errorFilm, List.append_nil]⟩
  | some halt =>
      obtain ⟨events', hextends', herror⟩ := Stage.conclude_extends setting ended halt
      refine ⟨events ++ events', hextends.trans hextends', ?_⟩
      rw [recordedBuffers_append, hrecorded rfl, herror]

end Setting.Steady

/-! ## What the frames depend on -/

section

variable {config other : Config}

theorem Config.ticks_congr (h : config.fps = other.fps) : config.ticks = other.ticks := by
  funext duration
  simp only [ticks, frameCount, h]

theorem Config.keyTicks_congr (h : config.fps = other.fps)
    (h' : config.typingSpeed = other.typingSpeed) : config.keyTicks = other.keyTicks := by
  funext key chance
  simp only [keyTicks, keyDelay, h', Config.ticks_congr h]

/-- A film depends on the frame rate and the typing speed only. -/
theorem film_congr (h : config.fps = other.fps) (h' : config.typingSpeed = other.typingSpeed)
    (rhythm : Twister) (cues : List Cue) : film config rhythm cues = film other rhythm cues := by
  have hcue (rhythm : Twister) (cue : Cue) : cue.film config rhythm = cue.film other rhythm := by
    cases cue with
    | key pressed session => simp only [Cue.film, Config.keyTicks_congr h h']
    | hold duration session => simp only [Cue.film, Config.ticks_congr h]
    | flash session => rfl
    | turn session => rfl
    | log entry => rfl
    | halt reason => rfl
  induction cues generalizing rhythm with
  | nil => rfl
  | cons cue rest ih => rw [film, film, hcue, ih]

end

/-! ## Two settings -/

/-- A seed determines the source of the rhythm; without one the system gives any source. -/
theorem Setting.rhythm_eq_of_seed {setting other : Setting} {seed : Nat}
    (h : setting.config.seed? = some seed) (h' : other.config.seed? = some seed) :
    setting.rhythm = other.rhythm := by
  rw [rhythm, rhythm, h, h']

/-- The run of a script in a setting, from the start. -/
def Setting.run (setting : Setting) (records : List Json) : Stage × Outcome :=
  (Stage.initial setting.rhythm).run setting records

/-- What the runs of a script in two settings have in common. -/
structure Agree (setting other : Setting) (records : List Json) : Prop where
  /-- The runs end alike. -/
  outcome : (setting.run records).2 = (other.run records).2
  /-- The terminals hold the same text, and the same commands were started in the same order. -/
  session : (setting.run records).1.session = (other.run records).1.session
  /-- With the same source of the rhythm the frames are projections of the same buffers. -/
  frames : setting.config.fps = other.config.fps →
    setting.config.typingSpeed = other.config.typingSpeed →
    setting.rhythm = other.rhythm →
    ∃ buffers,
      (setting.run records).1.frames.toList.map Except.ok = projections setting.config 0 buffers ∧
      (other.run records).1.frames.toList.map Except.ok = projections other.config 0 buffers

/-- In two steady settings with the same commands, the runs of a script agree. -/
theorem run_agrees {setting other : Setting} (hcommands : setting.commands = other.commands)
    (h : setting.Steady) (h' : other.Steady) (records : List Json) :
    Agree setting other records := by
  obtain ⟨houtcome, hsession⟩ := h.run records (Stage.initial setting.rhythm)
  obtain ⟨houtcome', hsession'⟩ := h'.run records (Stage.initial other.rhythm)
  rw [hcommands] at houtcome hsession
  have hends : (setting.run records).2 = (other.run records).2 := houtcome.trans houtcome'.symm
  have hsame : (setting.run records).1.session = (other.run records).1.session :=
    hsession.trans hsession'.symm
  refine ⟨hends, hsame, fun hfps htyping hrhythm => ?_⟩
  obtain ⟨events, ⟨-, frames, hframes, hproject⟩, hrecorded⟩ :=
    h.run_extends records (Stage.initial setting.rhythm)
  obtain ⟨events', ⟨-, frames', hframes', hproject'⟩, hrecorded'⟩ :=
    h'.run_extends records (Stage.initial other.rhythm)
  -- both record the film of the same sheet with the same rhythm
  have hbuffers : recordedBuffers events = recordedBuffers events' := by
    have hfilm : film setting.config setting.rhythm (played (cueSheet setting.commands .empty records))
        = film other.config other.rhythm (played (cueSheet other.commands .empty records)) := by
      rw [film_congr hfps htyping, hrhythm, hcommands]
    rw [hrecorded, hrecorded']
    exact congrArg₂ _ hfilm (congrArg₂ _ hsame hends)
  refine ⟨recordedBuffers events, ?_, ?_⟩
  · rw [Setting.run, hframes]
    exact hproject
  · rw [Setting.run, hframes', hbuffers]
    exact hproject'

/-- Another look of the same recording. -/
def otherLook : Config :=
  { usualConfig with
    lineCount := 5
    cursorGlyph := .string "_"
    cursorBlink := 0
    lineNumbers := .bool true }

theorem run_agrees_otherLook :
    Agree (quietSetting usualConfig) (quietSetting otherLook) Stage.oneLetter := by
  have husual := usualConfig_moderate
  have hother : otherLook.Moderate :=
    ⟨husual.fps, husual.typingSpeed, Nat.zero_le _, fun _ => by decide⟩
  have hsteady : (quietSetting usualConfig).Steady :=
    Setting.steady_of_moderate rfl husual (fun _ => rfl) trivial
  have hsteady' : (quietSetting otherLook).Steady :=
    Setting.steady_of_moderate rfl hother (fun _ => rfl) trivial
  have hcommands : (quietSetting usualConfig).commands = (quietSetting otherLook).commands := rfl
  exact run_agrees hcommands hsteady hsteady' Stage.oneLetter

/-- An interval of the cursor that is no number of frames. -/
def hugeBlink : Config := { usualConfig with cursorBlink := 10 ^ 400 }

/-- Two runs of a script that presses return.  They differ in the interval of the cursor only, but one of
them does not come to its end: the error that there is no phase of the cursor cannot be shown. -/
theorem run_hugeBlink :
    hugeBlink = { usualConfig with cursorBlink := 10 ^ 400 } ∧
      ((quietSetting usualConfig).run [Stage.bareRecord "enter"]).2.exitCode? = some 0 ∧
      ((quietSetting hugeBlink).run [Stage.bareRecord "enter"]).2.exitCode? = none := by
  refine ⟨rfl, ?_, ?_⟩
  · decide +kernel
  · decide +kernel

end Screencast
