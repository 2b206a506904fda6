import Screencast.Proofs.Replay.Sheet

/-!
# The film of a replay

The journal of a stage tells which buffer each frame was recorded from, so the frames can be checked
against it: `Extends` says that a stage went on from another one by some events, and that each event
which records a buffer left exactly one frame, the projection of that buffer at the place of the frame.

`Films` bounds which buffers an action records.  `Cue.film` and `film` list the buffers that a cue
and a sheet call for, and `performAll_films` says that performing a sheet records a first part of its
film, and all of it unless it comes to a halt.
-/

namespace Screencast

/-- The buffer that an event records. -/
def Event.buffer? : Event → Option Text
  | .recorded buffer => some buffer
  | .shown _ | .slept _ | .logged _ => none

/-- The buffers that events record, in order. -/
def recordedBuffers (events : List Event) : List Text := events.filterMap Event.buffer?

@[simp] theorem recordedBuffers_append (events later : List Event) :
    recordedBuffers (events ++ later) = recordedBuffers events ++ recordedBuffers later :=
  List.filterMap_append

@[simp] theorem recordedBuffers_recorded (buffer : Text) :
    recordedBuffers [.recorded buffer] = [buffer] := rfl

/-- What buffers show, each at its own place, the first at the given one. -/
def projections (config : Config) (first : Nat) (buffers : List Text) :
    List (Except ProjectionError Frame) :=
  buffers.mapIdx fun i buffer => project config buffer ((first + i : Nat) : Int)

theorem projections_append (config : Config) (first : Nat) (buffers later : List Text) :
    projections config first (buffers ++ later)
      = projections config first buffers ++ projections config (first + buffers.length) later := by
  simp only [projections, List.mapIdx_append]
  congr 2
  funext i buffer
  rw [Nat.add_assoc, Nat.add_comm i]

namespace Stage

/-- A stage has more frames than another one: the projections of buffers, each at the place of its
frame. -/
def Adds (config : Config) (before : Stage) (buffers : List Text) (after : Stage) : Prop :=
  ∃ frames : List Frame, after.frames.toList = before.frames.toList ++ frames ∧
    frames.map Except.ok = projections config before.frames.size buffers

/-- A stage that went on from another one: nothing in the journal and no frame was taken back, and
each recorded buffer left one frame, its projection at the place of that frame. -/
structure Extends (config : Config) (before : Stage) (events : List Event) (after : Stage) :
    Prop where
  journal : after.journal.toList = before.journal.toList ++ events
  frames : ∃ frames : List Frame, after.frames.toList = before.frames.toList ++ frames ∧
    frames.map Except.ok = projections config before.frames.size (recordedBuffers events)

variable {config : Config} {before middle after : Stage}

namespace Adds

variable {buffers later : List Text}

theorem of_eq (hframes : after.frames = before.frames) : Adds config before [] after :=
  ⟨[], by rw [hframes, List.append_nil], rfl⟩

/-- There are as many frames more as buffers. -/
theorem size_frames (h : Adds config before buffers after) :
    after.frames.size = before.frames.size + buffers.length := by
  obtain ⟨frames, hframes, hproject⟩ := h
  have hlength := congrArg List.length hproject
  rw [List.length_map, projections, List.length_mapIdx] at hlength
  rw [← hlength, ← Array.length_toList, hframes, List.length_append, Array.length_toList]

theorem trans (h : Adds config before buffers middle) (h' : Adds config middle later after) :
    Adds config before (buffers ++ later) after := by
  have hsize := h.size_frames
  obtain ⟨frames, hframes, hproject⟩ := h
  obtain ⟨frames', hframes', hproject'⟩ := h'
  refine ⟨frames ++ frames', by rw [hframes', hframes, List.append_assoc], ?_⟩
  rw [List.map_append, hproject, hproject', projections_append, hsize]

end Adds

namespace Extends

/-- Only frames and journal count. -/
theorem of_eq (hjournal : after.journal = before.journal) (hframes : after.frames = before.frames) :
    Extends config before [] after :=
  ⟨by simp [hjournal], Adds.of_eq hframes⟩

theorem refl (stage : Stage) : Extends config stage [] stage := of_eq rfl rfl

/-- There are as many frames more as buffers were recorded. -/
theorem size_frames {events : List Event} (h : Extends config before events after) :
    after.frames.size = before.frames.size + (recordedBuffers events).length :=
  Adds.size_frames h.frames

theorem trans {events later : List Event} (h : Extends config before events middle)
    (h' : Extends config middle later after) : Extends config before (events ++ later) after where
  journal := by rw [h'.journal, h.journal, List.append_assoc]
  frames := by
    rw [recordedBuffers_append]
    exact Adds.trans h.frames h'.frames

/-- An event that records nothing leaves no frame. -/
theorem note {event : Event} (h : event.buffer? = none) (stage : Stage) :
    Extends config stage [event] (stage.note event) :=
  ⟨by simp [Stage.note], [], by simp [Stage.note], by simp [recordedBuffers, h, projections]⟩

end Extends

/-- An action that films buffers: it records them in order from the first one on, and all of them
unless it comes to a halt. -/
def Films (config : Config) (before : Stage) (buffers : List Text)
    (result : Stage × Option Halt) : Prop :=
  ∃ events, Extends config before events result.1 ∧ recordedBuffers events <+: buffers ∧
    (result.2 = none → recordedBuffers events = buffers)

/-- An action for one buffer films it, if it records it exactly unless it halts. -/
theorem films_of_extends {buffer : Text} {result : Stage × Option Halt}
    (h : ∃ events, Extends config before events result.1 ∧
      recordedBuffers events = match result.2 with | none => [buffer] | some _ => []) :
    Films config before [buffer] result := by
  obtain ⟨events, hextends, hrecorded⟩ := h
  refine ⟨events, hextends, ?_, fun hnone => by rw [hrecorded, hnone]⟩
  rw [hrecorded]
  cases result.2 with
  | none => exact List.prefix_rfl
  | some halt => exact List.nil_prefix

namespace Films

theorem refl (stage : Stage) (halt : Option Halt) : Films config stage [] (stage, halt) :=
  ⟨[], .refl stage, List.nil_prefix, fun _ => rfl⟩

theorem note {event : Event} (h : event.buffer? = none) (stage : Stage) (halt : Option Halt) :
    Films config stage [] (stage.note event, halt) := by
  have hnone : recordedBuffers [event] = [] := by simp [recordedBuffers, h]
  refine ⟨[event], .note h stage, ?_, fun _ => hnone⟩
  exact hnone ▸ List.prefix_rfl

/-- An action that halts before it starts. -/
theorem halted (stage : Stage) (halt : Halt) (buffers : List Text) :
    Films config stage buffers (stage, some halt) :=
  ⟨[], .refl stage, List.nil_prefix, fun h => by cases h⟩

theorem andThen {buffers later : List Text} {result : Stage × Option Halt}
    {next : Stage → Stage × Option Halt} (h : Films config before buffers result)
    (hnext : ∀ stage, result = (stage, none) → Films config stage later (next stage)) :
    Films config before (buffers ++ later) (Stage.andThen result next) := by
  obtain ⟨stage, halt⟩ := result
  obtain ⟨events, hextends, hfirst, hall⟩ := h
  cases halt with
  | none =>
      obtain ⟨events', hextends', hfirst', hall'⟩ := hnext stage rfl
      -- the first action recorded all of its buffers, so the second one goes on behind them
      refine ⟨events ++ events', hextends.trans hextends', ?_, ?_⟩
      · rw [recordedBuffers_append, hall rfl]
        exact (List.prefix_append_right_inj buffers).mpr hfirst'
      · intro hend
        rw [recordedBuffers_append, hall rfl, hall' hend]
  | some halt =>
      exact ⟨events, hextends, hfirst.trans (List.prefix_append _ _), fun h => by cases h⟩

end Films

/-! ## Showing, recording, pausing

The views of a buffer are made once and used for several frames.  They are those of the buffer on
stage all along, because none of these operations changes the session. -/

theorem showView_films (setting : Setting) (views : Frame.Views) (stage : Stage) :
    Films config stage [] (stage.showView setting views) := by
  unfold showView
  split
  · split
    · exact .note rfl stage none
    · exact .refl stage _
  · exact .refl stage _

/-- Recording a view of the buffer on stage leaves that frame, or nothing if there is no view. -/
theorem recordView_extends (config : Config) {buffer : Text} {stage : Stage}
    (hbuffer : stage.session.buffer = buffer) :
    ∃ events, Extends config stage events (stage.recordView config (Frame.views config buffer)).1 ∧
      recordedBuffers events
        = match (stage.recordView config (Frame.views config buffer)).2 with
          | none => [buffer]
          | some _ => [] := by
  unfold recordView
  cases hframe : (Frame.views config buffer).at config stage.frames.size with
  | ok frame =>
      refine ⟨[.recorded stage.session.buffer], ⟨by simp, [frame], by simp, ?_⟩, ?_⟩
      · rw [recordedBuffers_recorded, hbuffer]
        exact congrArg (· :: []) hframe.symm
      · rw [recordedBuffers_recorded, hbuffer]
  | error error => exact ⟨[], .refl stage, rfl⟩

theorem recordViews_films (config : Config) {buffer : Text} (count : Nat) {stage : Stage}
    (hbuffer : stage.session.buffer = buffer) :
    Films config stage (List.replicate count buffer)
      (stage.recordViews config (Frame.views config buffer) count) := by
  induction count generalizing stage with
  | zero => exact .refl stage none
  | succ count ih =>
      rw [recordViews_succ, List.replicate_succ, ← List.singleton_append]
      refine Films.andThen (films_of_extends (recordView_extends config hbuffer))
        fun next hnext => ih ?_
      -- the next frame is recorded from the same session
      have hsession := (holds_recordView config (Frame.views config buffer) stage).session
      rw [hnext] at hsession
      rw [hsession, hbuffer]

theorem pause_films (pacing : Pacing) (duration : Number) (stage : Stage) :
    Films config stage [] (stage.pause pacing duration) := by
  unfold pause
  split
  · exact .refl stage none
  · split
    · split
      · exact .note rfl stage _
      · exact .refl stage _
    · exact .refl stage none

end Stage

/-! ## What cues call for -/

namespace Config

/-- How many frames a time lasts. -/
def ticks (config : Config) (duration : Number) : Nat :=
  match config.frameCount duration with
  | .ok count => count.toNat
  | .error _ => 0

/-- How many frames a key is held for, with this draw of the typing rhythm. -/
def keyTicks (config : Config) (key : Key) (chance : Binary64) : Nat :=
  match config.keyDelay key chance with
  | .ok delay => config.ticks (.real delay)
  | .error _ => 0

end Config

/-- The buffers that a cue calls for: its session is held as long as a key or a pause takes, and a
piece of output for one frame; what is not shown is not recorded. -/
def Cue.film (config : Config) (rhythm : Twister) : Cue → List Text
  | .key pressed session => List.replicate (config.keyTicks pressed rhythm.next.1) session.buffer
  | .hold duration session => List.replicate (config.ticks (.int duration)) session.buffer
  | .flash session => [session.buffer]
  | .turn _ | .log _ | .halt _ => []

/-- The buffers that cues call for, one cue after the other. -/
def film (config : Config) : Twister → List Cue → List Text
  | _, [] => []
  | rhythm, cue :: rest => cue.film config rhythm ++ film config (cue.nextRhythm rhythm) rest

namespace Stage

variable {config : Config} (setting : Setting)

theorem elapseViews_films (config : Config) (pacing : Pacing) (duration : Number) {buffer : Text}
    {stage : Stage} (hbuffer : stage.session.buffer = buffer) :
    Films config stage (List.replicate (config.ticks duration) buffer)
      (haltOf (stage.elapseViews config pacing (Frame.views config buffer) duration)) := by
  rw [haltOf_elapseViews, Config.ticks]
  cases config.frameCount duration with
  | error error => exact .halted stage _ _
  | ok count =>
      rw [← List.append_nil (List.replicate _ _)]
      exact (recordViews_films config count.toNat hbuffer).andThen
        fun next _ => pause_films pacing duration next

theorem advance_films (duration : Number) (stage : Stage) :
    Films setting.config stage
      (List.replicate (setting.config.ticks duration) stage.session.buffer)
      (haltOf (stage.advance setting duration)) := by
  rw [haltOf_advance, ← List.nil_append (List.replicate _ _)]
  refine (showView_films setting _ stage).andThen fun next hnext => ?_
  have hsession := (holds_showView setting (Frame.views setting.config stage.session.buffer)
    stage).session
  rw [hnext] at hsession
  exact elapseViews_films setting.config setting.pacing duration (congrArg Session.buffer hsession)

/-- Showing a session as one frame records its buffer, or nothing if it cannot be shown. -/
theorem flash_extends (stage : Stage) :
    ∃ events, Extends setting.config stage events (stage.flash setting).1 ∧
      recordedBuffers events
        = match (stage.flash setting).2 with
          | none => [stage.session.buffer]
          | some _ => [] := by
  rw [flash_eq]
  -- showing a frame records nothing, so what is recorded is recorded afterwards
  have hshown : Films setting.config stage [] (stage.showView setting
      (Frame.views setting.config stage.session.buffer)) :=
    showView_films setting _ stage
  obtain ⟨events, hextends, hfirst, -⟩ := hshown
  have hsession := (holds_showView setting (Frame.views setting.config stage.session.buffer)
    stage).session
  rcases h : stage.showView setting (Frame.views setting.config stage.session.buffer) with
    ⟨next, _ | halt⟩
  · rw [h] at hextends hsession
    obtain ⟨events', hextends', hrecorded⟩ :=
      recordView_extends setting.config (congrArg Session.buffer hsession)
    refine ⟨events ++ events', hextends.trans hextends', ?_⟩
    rw [recordedBuffers_append, List.prefix_nil.mp hfirst, hrecorded]
    rfl
  · rw [h] at hextends
    exact ⟨events, hextends, List.prefix_nil.mp hfirst⟩

theorem flash_films (stage : Stage) :
    Films setting.config stage [stage.session.buffer] (stage.flash setting) :=
  films_of_extends (flash_extends setting stage)

/-- Bringing a session on stage changes neither frames nor journal. -/
theorem Films.of_bring {cue : Cue} {stage : Stage} {buffers : List Text}
    {result : Stage × Option Halt} (h : Films config (stage.bring cue) buffers result) :
    Films config stage buffers result := by
  obtain ⟨events, hextends, hfirst, hall⟩ := h
  exact ⟨events, ⟨hextends.journal, hextends.frames⟩, hfirst, hall⟩

/-- A performed cue records what it calls for. -/
theorem perform_films (cue : Cue) (stage : Stage) :
    Films setting.config stage (cue.film setting.config stage.rhythm)
      (stage.perform setting cue) := by
  cases cue with
  | key key session =>
      simp only [perform, Cue.film, Config.keyTicks]
      cases setting.config.keyDelay key stage.rhythm.next.1 with
      | error error => exact .of_bring (.halted (stage.bring (.key key session)) _ _)
      | ok delay =>
          exact .of_bring (advance_films setting (.real delay) (stage.bring (.key key session)))
  | hold duration session =>
      exact .of_bring (advance_films setting (.int duration) (stage.bring (.hold duration session)))
  | flash session => exact .of_bring (flash_films setting (stage.bring (.flash session)))
  | turn session => exact .of_bring (.refl (stage.bring (.turn session)) none)
  | log entry => exact .note rfl stage none
  | halt reason => exact .refl stage (some reason)

/-- What a cue calls for is the buffer on stage while it is performed. -/
theorem eq_buffer_of_mem_film {cue : Cue} {rhythm : Twister} {buffer : Text}
    (h : buffer ∈ cue.film config rhythm) (stage : Stage) :
    buffer = (stage.perform setting cue).1.session.buffer := by
  rw [session_perform]
  cases cue with
  | key pressed session => exact List.eq_of_mem_replicate h
  | hold duration session => exact List.eq_of_mem_replicate h
  | flash session => exact List.mem_singleton.mp h
  | turn session => exact absurd h List.not_mem_nil
  | log entry => exact absurd h List.not_mem_nil
  | halt reason => exact absurd h List.not_mem_nil

/-- Performed cues record what they call for. -/
theorem performAll_films (cues : List Cue) (stage : Stage) :
    Films setting.config stage (film setting.config stage.rhythm cues)
      (stage.performAll setting cues) := by
  induction cues generalizing stage with
  | nil => exact .refl stage none
  | cons cue rest ih =>
      rw [performAll_cons, film]
      refine (perform_films setting cue stage).andThen fun next hnext => ?_
      -- the film of the rest begins with the rhythm that the cue left
      have hrhythm := rhythm_perform setting cue stage
      rw [hnext] at hrhythm
      rw [← hrhythm]
      exact ih next

end Stage

end Screencast
