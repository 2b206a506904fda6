import Screencast.Proofs.Replay.Agreement
import Screencast.Proofs.Replay.FrameLog
import Screencast.Proofs.Replay.Unpaced

/-!
# The pauses of a replay

A replay that takes its time pauses once for each time that a step lets pass, after the frames of that
time, and not at all for anything else.  `Cue.timeline` lists the frames and pauses of a cue in order, and
`Stage.exists_paces` says that a run has those of the cues that it performs.  A cue that halts, the error
that is shown then, and the last frames of a recording bring frames, but no pause.
-/

namespace Screencast

/-- Whether an event is a frame or a pause. -/
def Event.takesTime : Event → Bool
  | .recorded _ | .slept _ => true
  | .shown _ | .logged _ => false

/-- The pause for some milliseconds: a thousandth as many seconds, if they are more than none. -/
def Pacing.rests (pacing : Pacing) (duration : Number) : List Binary64 :=
  match pacing with
  | .immediate => []
  | .realTime _ =>
    if duration.isPositive then (duration.div (.int 1000)).toOption.toList else []

/-- What is recorded while some milliseconds pass, and the pause after it. -/
def Setting.passage (setting : Setting) (buffer : Text) (duration : Number) : List Event :=
  (List.replicate (setting.config.ticks duration) buffer).map .recorded
    ++ (setting.pacing.rests duration).map .slept

/-- The frames and pauses of a cue. -/
def Cue.timeline (setting : Setting) (rhythm : Twister) : Cue → List Event
  | .key pressed session =>
    match setting.config.keyDelay pressed rhythm.next.1 with
    | .ok delay => setting.passage session.buffer (.real delay)
    | .error _ => []
  | .hold duration session => setting.passage session.buffer (.int duration)
  | .flash session => [.recorded session.buffer]
  | .turn _ | .log _ | .halt _ => []

/-- The frames and pauses of cues, one cue after the other. -/
def timeline (setting : Setting) : Twister → List Cue → List Event
  | _, [] => []
  | rhythm, cue :: rest =>
    cue.timeline setting rhythm ++ timeline setting (cue.nextRhythm rhythm) rest

namespace Stage

/-- The frames and pauses so far. -/
def timeline (stage : Stage) : List Event := stage.journal.toList.filter Event.takesTime

theorem timeline_note (event : Event) (stage : Stage) :
    (stage.note event).timeline = stage.timeline ++ if event.takesTime then [event] else [] := by
  simp only [timeline, note, Array.toList_push, List.filter_append, List.filter_cons,
    List.filter_nil]

theorem timeline_log (source : String) (level : Level) (message : Text) (stage : Stage) :
    (stage.log source level message).timeline = stage.timeline := by
  rw [log, timeline_note, Event.takesTime, if_neg Bool.false_ne_true, List.append_nil]

/-- An action with these frames and pauses.  If it halts it has recorded some frames at most. -/
structure Passes (before : Stage) (events : List Event) (result : Stage × Option Halt) : Prop where
  whole : result.2 = none → result.1.timeline = before.timeline ++ events
  part : ∀ halt, result.2 = some halt →
    ∃ buffers : List Text, result.1.timeline = before.timeline ++ buffers.map .recorded

namespace Passes

/-- An action that records nothing and makes no pause. -/
theorem of_eq {before : Stage} {result : Stage × Option Halt}
    (h : result.1.timeline = before.timeline) : Passes before [] result where
  whole _ := by rw [h, List.append_nil]
  part _ _ := ⟨[], by rw [h, List.map_nil, List.append_nil]⟩

/-- An action that does not come to a halt. -/
theorem done {before after : Stage} {events : List Event}
    (h : after.timeline = before.timeline ++ events) : Passes before events (after, none) where
  whole _ := h
  part halt hhalt := by cases hhalt

theorem halted (stage : Stage) (halt : Halt) (events : List Event) :
    Passes stage events (stage, some halt) where
  whole := nofun
  part _ _ := ⟨[], by rw [List.map_nil, List.append_nil]⟩

/-- An action goes on behind frames. -/
theorem andThen {before : Stage} {buffers : List Text} {events : List Event}
    {result : Stage × Option Halt} {next : Stage → Stage × Option Halt}
    (h : Passes before (buffers.map .recorded) result)
    (hnext : ∀ stage, result = (stage, none) → Passes stage events (next stage)) :
    Passes before (buffers.map .recorded ++ events) (Stage.andThen result next) := by
  obtain ⟨stage, _ | halt⟩ := result
  · have hfirst : stage.timeline = before.timeline ++ buffers.map .recorded := h.whole rfl
    have hlast := hnext stage rfl
    refine ⟨fun hnone => ?_, fun halt hhalt => ?_⟩
    · rw [andThen_none] at hnone ⊢
      rw [hlast.whole hnone, hfirst, List.append_assoc]
    · rw [andThen_none] at hhalt ⊢
      obtain ⟨more, hmore⟩ := hlast.part halt hhalt
      exact ⟨buffers ++ more, by rw [hmore, hfirst, List.append_assoc, List.map_append]⟩
  · exact ⟨nofun, h.part⟩

/-- An action goes on behind one that records nothing. -/
theorem andThen_of_nil {before : Stage} {events : List Event} {result : Stage × Option Halt}
    {next : Stage → Stage × Option Halt} (h : Passes before [] result)
    (hnext : ∀ stage, result = (stage, none) → Passes stage events (next stage)) :
    Passes before events (Stage.andThen result next) := by
  have hbuffers : Passes before (([] : List Text).map .recorded) result := h
  exact hbuffers.andThen hnext

end Passes

/-! ## Showing, recording, pausing -/

theorem showView_passes (setting : Setting) (views : Frame.Views) (stage : Stage) :
    Passes stage [] (stage.showView setting views) := by
  unfold showView
  split
  · split
    · exact .of_eq (by rw [timeline_note, Event.takesTime, if_neg Bool.false_ne_true,
        List.append_nil])
    · exact .of_eq rfl
  · exact .of_eq rfl

theorem recordView_passes (config : Config) (views : Frame.Views) {buffer : Text} {stage : Stage}
    (hbuffer : stage.session.buffer = buffer) :
    Passes stage [.recorded buffer] (stage.recordView config views) := by
  unfold recordView
  split
  · have hnote := timeline_note (.recorded stage.session.buffer) stage
    refine .done ?_
    rw [← hbuffer]
    exact hnote
  · exact .halted stage _ _

theorem recordViews_passes (config : Config) (views : Frame.Views) (count : Nat) {buffer : Text}
    {stage : Stage} (hbuffer : stage.session.buffer = buffer) :
    Passes stage ((List.replicate count buffer).map .recorded)
      (stage.recordViews config views count) := by
  induction count generalizing stage with
  | zero => exact .of_eq rfl
  | succ count ih =>
      rw [recordViews_succ, List.replicate_succ, List.map_cons, ← List.singleton_append]
      have hfirst : Passes stage ([buffer].map .recorded) (stage.recordView config views) :=
        recordView_passes config views hbuffer
      refine hfirst.andThen fun next hnext => ih ?_
      have hsession := (holds_recordView config views stage).session
      rw [hnext] at hsession
      rw [hsession, hbuffer]

/-- A pause that nobody interrupts is made as a whole. -/
theorem pause_passes {pacing : Pacing} (h : pacing.Uninterrupted) (duration : Number)
    (stage : Stage) :
    Passes stage ((pacing.rests duration).map .slept) (stage.pause pacing duration) := by
  cases pacing with
  | immediate => exact .of_eq rfl
  | realTime interrupts =>
      have hnever (events : Nat) : interrupts events = false := h events
      simp only [pause, Pacing.rests, hnever]
      split
      · cases duration.div (.int 1000) with
        | error error => exact .halted stage _ _
        | ok seconds => exact .done (timeline_note (.slept seconds) stage)
      · exact .of_eq rfl

end Stage

/-! ## Cues -/

namespace Stage

variable {setting : Setting} (h : setting.pacing.Uninterrupted)

include h

theorem advance_passes (duration : Number) (stage : Stage) :
    Passes stage (setting.passage stage.session.buffer duration)
      (haltOf (stage.advance setting duration)) := by
  rw [haltOf_advance]
  refine (showView_passes setting _ stage).andThen_of_nil fun next hnext => ?_
  have hsession := (holds_showView setting (Frame.views setting.config stage.session.buffer)
    stage).session
  rw [hnext] at hsession
  rw [haltOf_elapseViews, Setting.passage, Config.ticks]
  cases setting.config.frameCount duration with
  | error error => exact .halted next _ _
  | ok count =>
      exact (recordViews_passes setting.config _ count.toNat
        (congrArg Session.buffer hsession)).andThen fun last _ => pause_passes h duration last

omit h in
theorem flash_passes (setting : Setting) (stage : Stage) :
    Passes stage [.recorded stage.session.buffer] (stage.flash setting) := by
  rw [flash_eq]
  refine (showView_passes setting _ stage).andThen_of_nil fun next hnext => ?_
  have hsession := (holds_showView setting (Frame.views setting.config stage.session.buffer)
    stage).session
  rw [hnext] at hsession
  exact recordView_passes setting.config _ (congrArg Session.buffer hsession)

/-- A performed cue has its frames and pauses. -/
theorem perform_passes (cue : Cue) (stage : Stage) :
    Passes stage (cue.timeline setting stage.rhythm) (stage.perform setting cue) := by
  cases cue with
  | key pressed session =>
      simp only [perform, Cue.timeline]
      cases setting.config.keyDelay pressed stage.rhythm.next.1 with
      | error error => exact .of_eq rfl
      | ok delay =>
          have hadvance := advance_passes h (.real delay) (stage.bring (.key pressed session))
          exact ⟨hadvance.whole, hadvance.part⟩
  | hold duration session =>
      have hadvance := advance_passes h (.int duration) (stage.bring (.hold duration session))
      exact ⟨hadvance.whole, hadvance.part⟩
  | flash session =>
      have hflash := flash_passes setting (stage.bring (.flash session))
      exact ⟨hflash.whole, hflash.part⟩
  | turn session => exact .of_eq rfl
  | log entry => exact .of_eq (by
      rw [perform, timeline_note, Event.takesTime, if_neg Bool.false_ne_true, List.append_nil])
  | halt reason => exact .of_eq rfl

/-- Cues that are performed have their frames and pauses, one after the other. -/
theorem timeline_performAll {cues : List Cue} {stage ended : Stage}
    (hcues : stage.performAll setting cues = (ended, none)) :
    ended.timeline = stage.timeline ++ Screencast.timeline setting stage.rhythm cues := by
  induction cues generalizing stage with
  | nil =>
      obtain rfl : stage = ended := congrArg Prod.fst hcues
      rw [Screencast.timeline, List.append_nil]
  | cons cue rest ih =>
      rw [performAll_cons] at hcues
      obtain ⟨next, hcue, hrest⟩ := andThen_eq_none hcues
      have hfirst := (perform_passes h cue stage).whole (by rw [hcue])
      have hrhythm := rhythm_perform setting cue stage
      rw [hcue] at hfirst hrhythm
      rw [ih hrest, hfirst, hrhythm, Screencast.timeline, List.append_assoc]

end Stage

namespace Stage

/-- Cues are performed up to the first one that halts. -/
theorem performAll_cases (setting : Setting) (cues : List Cue) (stage : Stage) :
    ∃ done rest now, cues = done ++ rest ∧ stage.performAll setting done = (now, none) ∧
      ((rest = [] ∧ stage.performAll setting cues = (now, none)) ∨
        ∃ cue later raised halt, rest = cue :: later ∧
          now.perform setting cue = (raised, some halt) ∧
          stage.performAll setting cues = (raised, some halt)) := by
  induction cues generalizing stage with
  | nil => exact ⟨[], [], stage, rfl, rfl, .inl ⟨rfl, rfl⟩⟩
  | cons cue cues ih =>
      rcases hcue : stage.perform setting cue with ⟨next, _ | halt⟩
      · obtain ⟨done, rest, now, rfl, hdone, hrest⟩ := ih next
        refine ⟨cue :: done, rest, now, rfl, ?_, ?_⟩
        · rw [performAll_cons, hcue, andThen_none, hdone]
        · rw [performAll_cons, hcue, andThen_none]
          exact hrest
      · refine ⟨[], cue :: cues, stage, rfl, rfl, .inr ⟨cue, cues, next, halt, rfl, hcue, ?_⟩⟩
        rw [performAll_cons, hcue, andThen_some]

/-- Concluding a replay makes no pause. -/
theorem conclude_timeline (setting : Setting) (stage : Stage) (halt : Halt) :
    ∃ buffers : List Text,
      (stage.conclude setting halt).1.timeline = stage.timeline ++ buffers.map .recorded := by
  cases halt with
  | interrupted => exact ⟨[], by rw [conclude, timeline_log, List.map_nil, List.append_nil]⟩
  | endless => exact ⟨[], (List.append_nil _).symm⟩
  | failed failure =>
      have hflash := flash_passes setting (stage.withError failure.text)
      rw [← abort_eq_flash] at hflash
      have hbefore : (stage.withError failure.text).timeline = stage.timeline :=
        timeline_log _ _ _ stage
      simp only [conclude]
      rcases habort : stage.abort setting failure.text with ⟨shown, _ | halt⟩
      · rw [habort] at hflash
        refine ⟨[(stage.withError failure.text).session.buffer], ?_⟩
        rw [← hbefore]
        exact hflash.whole rfl
      · rw [habort] at hflash
        rw [← hbefore]
        exact hflash.part halt rfl

/-- The frames and pauses of a run: those of the cues that it performs, one after the other, and frames
after them if it halts. -/
structure Paces (setting : Setting) (stage : Stage) (records : List Json) (done rest : List Cue)
    (buffers : List Text) : Prop where
  sheet : cueSheet setting.commands stage.session records = done ++ rest
  /-- The cues are performed, except for those from the first one on that halts. -/
  performed : ∃ now, stage.performAll setting done = (now, none) ∧
    ∀ cue later, rest = cue :: later → ∃ halt, (now.perform setting cue).2 = some halt
  timeline : (stage.run setting records).1.timeline
    = stage.timeline ++ Screencast.timeline setting stage.rhythm done ++ buffers.map .recorded

theorem exists_paces {setting : Setting} (h : setting.pacing.Uninterrupted) (records : List Json)
    (stage : Stage) : ∃ done rest buffers, Paces setting stage records done rest buffers := by
  obtain ⟨done, rest, now, hsheet, hdone, hend⟩ :=
    performAll_cases setting (cueSheet setting.commands stage.session records) stage
  have htimeline := timeline_performAll h hdone
  rcases hend with ⟨rfl, hall⟩ | ⟨cue, later, raised, halt, rfl, hcue, hall⟩
  · refine ⟨done, [], [], hsheet, ⟨now, hdone, nofun⟩, ?_⟩
    rw [run_eq_conclude, performRecords_eq_performAll, hall, List.map_nil, List.append_nil]
    exact htimeline
  · -- neither the cue that halts nor what is shown then makes a pause
    obtain ⟨shown, hshown⟩ := (perform_passes h cue now).part halt (by rw [hcue])
    obtain ⟨last, hlast⟩ := conclude_timeline setting raised halt
    rw [hcue] at hshown
    refine ⟨done, cue :: later, shown ++ last, hsheet, ⟨now, hdone, ?_⟩, ?_⟩
    · rintro _ _ ⟨⟩
      exact ⟨halt, by rw [hcue]⟩
    · rw [run_eq_conclude, performRecords_eq_performAll, hall]
      calc (raised.conclude setting halt).1.timeline
          = raised.timeline ++ last.map .recorded := hlast
        _ = now.timeline ++ shown.map .recorded ++ last.map .recorded := by rw [hshown]
        _ = _ := by rw [htimeline, List.map_append, List.append_assoc]

end Stage

/-! ## Recordings -/

namespace Recording

open Stage

theorem timeline_noteAll (entries : List LogEntry) (stage : Stage) :
    (noteAll entries stage).timeline = stage.timeline := by
  induction entries generalizing stage with
  | nil => rfl
  | cons entry rest ih =>
      have hnote : (stage.note (.logged entry)).timeline = stage.timeline := by
        rw [timeline_note, Event.takesTime, if_neg Bool.false_ne_true, List.append_nil]
      exact (ih _).trans hnote

theorem timeline_finish (tools : Tools) (config : Config) (path : List Char) (exitCode : Nat)
    (stage : Stage) (shop : Workshop) :
    (finish tools config path exitCode stage shop).stage.timeline = stage.timeline := by
  simp only [finish]
  rcases (Target.choose path config.renderer).render tools config stage.frames.toList shop with
    ⟨shop, failure | file⟩
  · cases failure with
    | reported error => exact (timeline_log _ _ _ _).trans (timeline_noteAll shop.log stage)
    | _ => exact timeline_noteAll shop.log stage
  · exact (timeline_log _ _ _ _).trans (timeline_noteAll shop.log stage)

theorem timeline_conclude (setting : Setting) (tools : Tools) (path : List Char) (disk : Disk)
    (replayed : Stage × Outcome) :
    (conclude setting tools path disk replayed).stage.timeline
      = (held setting replayed).timeline := by
  obtain ⟨stage, outcome⟩ := replayed
  cases outcome with
  | success | failure =>
      simp only [conclude, held, Outcome.exitCode?]
      rcases stage.elapse setting.config .immediate (.int setting.config.endDelay) with
        ⟨last, halt | count⟩
      · rfl
      · simp only [timeline_finish]
  | escaped halt => rfl
  | endless => rfl

/-- Holding the last frame makes no pause. -/
theorem timeline_held (setting : Setting) (replayed : Stage × Outcome) :
    ∃ buffers : List Text,
      (held setting replayed).timeline = replayed.1.timeline ++ buffers.map .recorded := by
  obtain ⟨stage, outcome⟩ := replayed
  have helapsed : ∃ buffers : List Text,
      (stage.elapse setting.config .immediate (.int setting.config.endDelay)).1.timeline
        = stage.timeline ++ buffers.map .recorded := by
    simp only [elapse, elapseViews]
    cases setting.config.frameCount (.int setting.config.endDelay) with
    | error error => exact ⟨[], (List.append_nil _).symm⟩
    | ok count =>
        have hrecorded := recordViews_passes setting.config
          (Frame.views setting.config stage.session.buffer) count.toNat
          (rfl : stage.session.buffer = _)
        rcases hlast : stage.recordViews setting.config
          (Frame.views setting.config stage.session.buffer) count.toNat with ⟨last, _ | halt⟩
        · rw [hlast] at hrecorded
          simp only [hlast]
          exact ⟨_, hrecorded.whole rfl⟩
        · rw [hlast] at hrecorded
          simp only [hlast]
          exact hrecorded.part halt rfl
  simp only [held]
  cases outcome.exitCode? with
  | none => exact ⟨[], (List.append_nil _).symm⟩
  | some exitCode => exact helapsed

end Recording

/-! ## Preview and pauses -/

/-- What it means that a script is recorded alike in two settings, and when the second one pauses. -/
structure Setting.Independent (setting paced : Setting) (records : List Json) : Prop where
  /-- The runs from a stage have the same outcome, session, frames and rhythm, and the same is shown,
  recorded and told on the way. -/
  run : ∀ stage : Stage, Stage.Matched (stage.run setting records) (stage.run paced records)
  /-- So have the recordings, with the same files, if their rhythms have the same source. -/
  recording : setting.rhythm = paced.rhythm → ∀ tools path disk,
    (Recording.ofScript setting tools path records disk).Matches
      (Recording.ofScript paced tools path records disk)
  /-- A run pauses for the cues that it performs, and not at all afterwards. -/
  pauses : ∀ stage : Stage, ∃ done rest buffers, stage.Paces paced records done rest buffers
  /-- Neither do holding the last frame and rendering. -/
  ending : ∀ tools path disk, ∃ buffers : List Text,
    (Recording.ofScript paced tools path records disk).stage.timeline
      = ((Recording.opening paced).run paced records).1.timeline ++ buffers.map .recorded

/-- Two settings that differ only in preview and pauses, none of which fails, record a script alike. -/
theorem Setting.SamePlay.independent {setting paced : Setting} (h : setting.SamePlay paced)
    (records : List Json) : setting.Independent paced records where
  run stage := h.matched_run records (.refl stage)
  recording hrhythm tools path disk := Recording.matches_ofScript h hrhythm tools path records disk
  pauses stage := Stage.exists_paces h.otherPacing records stage
  ending tools path disk := by
    obtain ⟨buffers, hheld⟩ :=
      Recording.timeline_held paced ((Recording.opening paced).run paced records)
    refine ⟨buffers, ?_⟩
    rw [Recording.ofScript, Recording.timeline_conclude, hheld]

/-- A setting that takes its time, without interrupts. -/
def slowSetting (config : Config) : Setting :=
  { quietSetting config with pacing := .realTime fun _ => false }

/-- A return in real time takes one second. -/
theorem independent_enter :
    (quietSetting usualConfig).Independent (slowSetting usualConfig) [Stage.bareRecord "enter"] ∧
      ((slowSetting usualConfig).run [Stage.bareRecord "enter"]).1.sleeps = [.ofInt 1] := by
  have hsame : (quietSetting usualConfig).SamePlay (slowSetting usualConfig) :=
    ⟨rfl, rfl, fun _ => rfl, fun _ => rfl, trivial, fun _ => rfl⟩
  exact ⟨hsame.independent [Stage.bareRecord "enter"], by decide +kernel⟩

end Screencast
