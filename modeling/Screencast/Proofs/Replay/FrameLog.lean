import Screencast.Proofs.Replay.Film
import Screencast.Recording

/-!
# The frames of a recording as a log

Whatever a script does and however it ends, the frames it adds are a log: `frameLog` says that the
frames from before stay in front, that each frame added is the projection of the buffer on stage when
it was recorded, at its own place, and which buffers those are.  They are a first part of the film of
the script, then the buffer with the error, if there is one, then the last buffer again for the end
delay.
-/

namespace Screencast

namespace Stage

variable (setting : Setting)

/-- A stage with an error written to its terminal. -/
def withError (message : Text) (stage : Stage) : Stage :=
  { stage.log "termreplay.replay" .error ("ERROR: " ++ message) with
    session := stage.session.emit ("\nERROR: " ++ message) }

theorem abort_eq_flash (message : Text) (stage : Stage) :
    stage.abort setting message = (stage.withError message).flash setting := rfl

/-- Writing an error to the terminal is told in the log. -/
theorem withError_extends (config : Config) (message : Text) (stage : Stage) :
    Extends config stage [.logged ⟨"termreplay.replay", .error, "ERROR: " ++ message⟩]
      (stage.withError message) := by
  let entry : LogEntry := ⟨"termreplay.replay", .error, "ERROR: " ++ message⟩
  have hlog : Extends config stage [.logged entry] (stage.note (.logged entry)) := .note rfl stage
  exact ⟨hlog.journal, hlog.frames⟩

/-- Showing an error records the buffer with the error, or nothing if it cannot be shown. -/
theorem abort_extends (message : Text) (stage : Stage) :
    ∃ events, Extends setting.config stage events (stage.abort setting message).1 ∧
      recordedBuffers events
        = match (stage.abort setting message).2 with
          | none => [stage.session.buffer ++ ("\nERROR: " ++ message)]
          | some _ => [] := by
  obtain ⟨events, hextends, hrecorded⟩ := flash_extends setting (stage.withError message)
  exact ⟨_, (withError_extends setting.config message stage).trans hextends, hrecorded⟩

end Stage

/-- The buffers that are recorded for showing an error. -/
def Outcome.errorFilm (session : Session) : Outcome → List Text
  | .failure => [session.buffer]
  | .success | .escaped _ | .endless => []

namespace Stage

variable (setting : Setting)

/-- Concluding a halt records the buffer with the error if the replay counts as failed, and nothing
otherwise. -/
theorem conclude_extends (stage : Stage) (halt : Halt) :
    ∃ events, Extends setting.config stage events (stage.conclude setting halt).1 ∧
      recordedBuffers events
        = (stage.conclude setting halt).2.errorFilm (stage.conclude setting halt).1.session := by
  cases halt with
  | interrupted => exact ⟨_, .note rfl stage, rfl⟩
  | endless => exact ⟨[], .refl stage, rfl⟩
  | failed failure =>
      obtain ⟨events, hextends, hrecorded⟩ := abort_extends setting failure.text stage
      have hsession := (holds_flash setting (stage.withError failure.text)).session
      rw [← abort_eq_flash] at hsession
      simp only [conclude]
      rcases h : stage.abort setting failure.text with ⟨shown, _ | halt⟩
      · rw [h] at hextends hrecorded hsession
        refine ⟨events, hextends, ?_⟩
        rw [hrecorded, Outcome.errorFilm, hsession]
        rfl
      · rw [h] at hextends hrecorded
        exact ⟨events, hextends, hrecorded⟩

/-- Ends a replay that was performed up to its end or up to a halt. -/
def close : Stage × Option Halt → Stage × Outcome
  | (ended, none) => (ended, .success)
  | (ended, some halt) => ended.conclude setting halt

theorem run_eq_close (records : List Json) (stage : Stage) :
    stage.run setting records = close setting (stage.performRecords setting records) :=
  run_eq_conclude setting records stage

/-- A replay records a first part of the film of its cues, and all of it if nothing halts it; then the
error that it shows, if it shows one. -/
theorem close_extends (cues : List Cue) (stage : Stage) :
    ∃ shots events,
      Extends setting.config stage events (close setting (stage.performAll setting cues)).1 ∧
      recordedBuffers events = shots ++
        (close setting (stage.performAll setting cues)).2.errorFilm
          (close setting (stage.performAll setting cues)).1.session ∧
      shots <+: film setting.config stage.rhythm cues ∧
      ((stage.performAll setting cues).2 = none → shots = film setting.config stage.rhythm cues) := by
  obtain ⟨events, hextends, hfirst, hall⟩ := performAll_films setting cues stage
  rcases h : stage.performAll setting cues with ⟨ended, _ | halt⟩
  · rw [h] at hextends hall
    exact ⟨recordedBuffers events, events, hextends, (List.append_nil _).symm, hfirst, hall⟩
  · rw [h] at hextends hall
    obtain ⟨events', hextends', hrecorded⟩ := conclude_extends setting ended halt
    refine ⟨recordedBuffers events, events ++ events', hextends.trans hextends', ?_, hfirst, hall⟩
    rw [recordedBuffers_append, hrecorded]
    rfl

/-- So does a run, with the film of its script. -/
theorem run_extends (records : List Json) (stage : Stage) :
    ∃ shots events, Extends setting.config stage events (stage.run setting records).1 ∧
      recordedBuffers events = shots ++
        (stage.run setting records).2.errorFilm (stage.run setting records).1.session ∧
      shots <+: film setting.config stage.rhythm
        (cueSheet setting.commands stage.session records) ∧
      ((stage.performRecords setting records).2 = none →
        shots = film setting.config stage.rhythm
          (cueSheet setting.commands stage.session records)) := by
  rw [run_eq_close, performRecords_eq_performAll]
  exact close_extends setting (cueSheet setting.commands stage.session records) stage

end Stage

namespace Recording

theorem frames_noteAll (entries : List LogEntry) (stage : Stage) :
    (noteAll entries stage).frames = stage.frames := by
  induction entries generalizing stage with
  | nil => rfl
  | cons entry rest ih => exact ih (stage.note (.logged entry))

/-- Rendering records nothing. -/
theorem frames_finish (tools : Tools) (config : Config) (path : List Char) (exitCode : Nat)
    (stage : Stage) (shop : Workshop) :
    (finish tools config path exitCode stage shop).stage.frames = stage.frames := by
  simp only [finish]
  rcases (Target.choose path config.renderer).render tools config stage.frames.toList shop with
    ⟨shop, failure | file⟩
  · cases failure with
    | reported error => exact frames_noteAll shop.log stage
    | _ => exact frames_noteAll shop.log stage
  · exact frames_noteAll shop.log stage

/-- The stage of a replay after the end delay; a replay without an exit code has none. -/
def held (setting : Setting) (replayed : Stage × Outcome) : Stage :=
  match replayed.2.exitCode? with
  | some _ => (replayed.1.elapse setting.config .immediate (.int setting.config.endDelay)).1
  | none => replayed.1

theorem frames_conclude (setting : Setting) (tools : Tools) (path : List Char) (disk : Disk)
    (replayed : Stage × Outcome) :
    (conclude setting tools path disk replayed).stage.frames = (held setting replayed).frames := by
  obtain ⟨stage, outcome⟩ := replayed
  cases outcome with
  | success | failure =>
      simp only [conclude, held, Outcome.exitCode?]
      rcases stage.elapse setting.config .immediate (.int setting.config.endDelay) with
        ⟨last, halt | count⟩
      · rfl
      · simp only [frames_finish]
  | escaped halt => rfl
  | endless => rfl

end Recording

/-- What it means that the frames of a replay are a log: of its moments, of the run as a whole, of
the end delay and of the recording. -/
structure FrameLog (setting : Setting) (records : List Json) (stage : Stage) : Prop where
  /-- The moments of a run are those of its sheet. -/
  sheet : stage.performRecords setting records
    = stage.performAll setting (cueSheet setting.commands stage.session records)
  /-- The frames that a moment adds are projections of the buffer on stage. -/
  moment : ∀ cue now,
    Stage.Films setting.config now (cue.film setting.config now.rhythm) (now.perform setting cue) ∧
    ∀ buffer ∈ cue.film setting.config now.rhythm,
      buffer = (now.perform setting cue).1.session.buffer
  /-- A run adds a first part of the film of its script, all of it if nothing halts it, and then
  the buffer with the error if it shows one. -/
  run : ∃ shots events, Stage.Extends setting.config stage events (stage.run setting records).1 ∧
    recordedBuffers events = shots ++
      (stage.run setting records).2.errorFilm (stage.run setting records).1.session ∧
    shots <+: film setting.config stage.rhythm (cueSheet setting.commands stage.session records) ∧
    ((stage.performRecords setting records).2 = none →
      shots = film setting.config stage.rhythm (cueSheet setting.commands stage.session records))
  /-- The end delay adds the last buffer again. -/
  delay : Stage.Films setting.config (stage.run setting records).1
    (List.replicate (setting.config.ticks (.int setting.config.endDelay))
      (stage.run setting records).1.session.buffer)
    (Stage.haltOf ((stage.run setting records).1.elapse setting.config .immediate
      (.int setting.config.endDelay)))
  /-- Rendering adds nothing. -/
  recording : ∀ tools path disk, (Recording.ofScript setting tools path records disk).stage.frames
    = (Recording.held setting ((Recording.opening setting).run setting records)).frames

/-- The frames of every replay are a log. -/
theorem frameLog (setting : Setting) (records : List Json) (stage : Stage) :
    FrameLog setting records stage where
  sheet := Stage.performRecords_eq_performAll setting records stage
  moment cue now :=
    ⟨Stage.perform_films setting cue now,
      fun _ hbuffer => Stage.eq_buffer_of_mem_film setting hbuffer now⟩
  run := Stage.run_extends setting records stage
  delay := Stage.elapseViews_films setting.config .immediate _ rfl
  recording tools path disk := Recording.frames_conclude setting tools path disk _

end Screencast
