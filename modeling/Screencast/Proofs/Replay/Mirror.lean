import Screencast.Proofs.Replay.Agreement
import Screencast.Proofs.Replay.Effect
import Screencast.Proofs.Replay.FrameLog

/-!
# The preview mirrors the terminal

Whatever changes the terminal is followed by showing it, before anything else can happen.  So what the
preview shows last is the screen as it is: `Stage.Mirrors` says that of a stage and of what led to it, and
`Heralded` that a frame which is recorded after the preview showed one is that very frame.

`Stage.perform_reflected` has both for one moment, `Stage.exists_reflected` for the moments of a script,
`Stage.endsMirrored_close` for how they end, and `run_mirrored` for every run.
-/

namespace Screencast

/-- The last frame that events show, and how many frames were recorded then, with so many before. -/
def lastShown? (count : Nat) : List Event → Option (Frame × Nat)
  | [] => none
  | .shown frame :: rest => (lastShown? count rest).or (some (frame, count))
  | .recorded _ :: rest => lastShown? (count + 1) rest
  | .slept _ :: rest | .logged _ :: rest => lastShown? count rest

/-- Each frame that is recorded first after showing one is the frame shown, the projection of the buffer at
its place; `ahead` was shown before, and nothing was recorded since. -/
def Heralded (config : Config) : Option Frame → Nat → List Event → Prop
  | _, _, [] => True
  | _, count, .shown frame :: rest => Heralded config (some frame) count rest
  | ahead, count, .recorded buffer :: rest =>
    (∀ frame ∈ ahead, project config buffer count = .ok frame) ∧
      Heralded config none (count + 1) rest
  | ahead, count, .slept _ :: rest | ahead, count, .logged _ :: rest =>
    Heralded config ahead count rest

/-- What can follow a buffer that is shown, until the next one is: it is recorded. -/
def Event.Follows (buffer : Text) : Event → Prop
  | .shown _ => False
  | .recorded seen => seen = buffer
  | .slept _ | .logged _ => True

/-- An event that neither shows nor records anything. -/
def Event.isQuiet : Event → Bool
  | .shown _ | .recorded _ => false
  | .slept _ | .logged _ => true

section

variable {config : Config} {buffer : Text} {frame : Frame} {events : List Event}

theorem lastShown?_append (count : Nat) (events later : List Event) :
    lastShown? count (events ++ later)
      = (lastShown? (count + (recordedBuffers events).length) later).or (lastShown? count events) := by
  induction events generalizing count with
  | nil => simp [lastShown?, recordedBuffers]
  | cons event rest ih =>
      cases event with
      | shown frame =>
          have hsame : recordedBuffers (.shown frame :: rest) = recordedBuffers rest := rfl
          rw [List.cons_append, lastShown?, ih, lastShown?, hsame, Option.or_assoc]
      | recorded buffer =>
          have hmore : (recordedBuffers (.recorded buffer :: rest)).length
              = (recordedBuffers rest).length + 1 := rfl
          rw [List.cons_append, lastShown?, ih, lastShown?, hmore, Nat.add_right_comm, Nat.add_assoc]
      | slept seconds | logged entry => exact ih count

theorem lastShown?_of_follows (h : ∀ event ∈ events, event.Follows buffer) (count : Nat) :
    lastShown? count events = none := by
  induction events generalizing count with
  | nil => rfl
  | cons event rest ih =>
      rw [List.forall_mem_cons] at h
      cases event with
      | shown frame => exact h.1.elim
      | recorded _ | slept _ | logged _ => exact ih h.2 _

/-- Events one after the other, each part of which announces its own frames. -/
theorem heralded_append {later : List Event} {ahead : Option Frame} {count : Nat}
    (h : Heralded config ahead count events)
    (hlater : ∀ ahead, Heralded config ahead (count + (recordedBuffers events).length) later) :
    Heralded config ahead count (events ++ later) := by
  induction events generalizing ahead count with
  | nil => exact hlater ahead
  | cons event rest ih =>
      cases event with
      | shown frame => exact ih h hlater
      | recorded buffer =>
          have hmore : (recordedBuffers (.recorded buffer :: rest)).length
              = (recordedBuffers rest).length + 1 := rfl
          rw [hmore, ← Nat.add_assoc, Nat.add_right_comm] at hlater
          exact ⟨h.1, ih h.2 hlater⟩
      | slept seconds | logged entry => exact ih h hlater

/-- What follows a buffer records the frame that was shown of it. -/
theorem heralded_of_follows {ahead : Option Frame} {count : Nat}
    (hahead : ∀ frame ∈ ahead, project config buffer count = .ok frame)
    (h : ∀ event ∈ events, event.Follows buffer) : Heralded config ahead count events := by
  induction events generalizing ahead count with
  | nil => trivial
  | cons event rest ih =>
      rw [List.forall_mem_cons] at h
      cases event with
      | shown frame => exact h.1.elim
      | recorded seen =>
          obtain rfl : seen = buffer := h.1
          exact ⟨hahead, ih nofun h.2⟩
      | slept seconds | logged entry => exact ih hahead h.2

theorem Heralded.project_of_quiet {count : Nat} {between later : List Event}
    (h : Heralded config (some frame) count (between ++ .recorded buffer :: later))
    (hquiet : ∀ event ∈ between, event.isQuiet = true) :
    project config buffer count = .ok frame := by
  induction between with
  | nil => exact h.1 frame rfl
  | cons event rest ih =>
      rw [List.forall_mem_cons] at hquiet
      cases event with
      | shown _ | recorded _ => cases hquiet.1
      | slept _ | logged _ => exact ih h hquiet.2

/-- The first frame that is recorded after showing one, wherever that is. -/
theorem Heralded.project_eq {ahead : Option Frame} {count : Nat} {earlier between later : List Event}
    (h : Heralded config ahead count
      (earlier ++ .shown frame :: (between ++ .recorded buffer :: later)))
    (hquiet : ∀ event ∈ between, event.isQuiet = true) :
    project config buffer ((count + (recordedBuffers earlier).length : Nat) : Int) = .ok frame := by
  induction earlier generalizing ahead count with
  | nil => exact h.project_of_quiet hquiet
  | cons event rest ih =>
      cases event with
      | shown _ | slept _ | logged _ => exact ih h
      | recorded seen =>
          have hmore : (recordedBuffers (.recorded seen :: rest)).length
              = (recordedBuffers rest).length + 1 := rfl
          rw [hmore, ← Nat.add_assoc, Nat.add_right_comm]
          exact ih h.2

end

namespace Stage

/-! ## Showing and recording -/

/-- A stage that went on from another one after a buffer was shown, without showing anything else. -/
def Upholds (config : Config) (buffer : Text) (before after : Stage) : Prop :=
  ∃ events, Extends config before events after ∧ ∀ event ∈ events, event.Follows buffer

namespace Upholds

variable {config : Config} {buffer : Text}

theorem refl (stage : Stage) : Upholds config buffer stage stage := ⟨[], .refl stage, nofun⟩

theorem andThen {before : Stage} {result : Stage × Option Halt}
    {next : Stage → Stage × Option Halt} (h : Upholds config buffer before result.1)
    (hnext : ∀ stage, result = (stage, none) → Upholds config buffer stage (next stage).1) :
    Upholds config buffer before (Stage.andThen result next).1 := by
  obtain ⟨stage, _ | halt⟩ := result
  · obtain ⟨events, hextends, hfollows⟩ := h
    obtain ⟨later, hextends', hfollows'⟩ := hnext stage rfl
    refine ⟨events ++ later, hextends.trans hextends', fun event hevent => ?_⟩
    exact (List.mem_append.mp hevent).elim (hfollows event) (hfollows' event)
  · exact h

end Upholds

theorem recordView_upholds (config : Config) {buffer : Text} {stage : Stage}
    (hbuffer : stage.session.buffer = buffer) :
    Upholds config buffer stage (stage.recordView config (Frame.views config buffer)).1 := by
  unfold recordView
  cases hframe : (Frame.views config buffer).at config stage.frames.size with
  | error error => exact .refl stage
  | ok frame =>
      refine ⟨[.recorded stage.session.buffer], ⟨by simp, [frame], by simp, ?_⟩, ?_⟩
      · rw [recordedBuffers_recorded, hbuffer]
        exact congrArg (· :: []) hframe.symm
      · rw [List.forall_mem_singleton]
        exact hbuffer

theorem recordViews_upholds (config : Config) {buffer : Text} (count : Nat) {stage : Stage}
    (hbuffer : stage.session.buffer = buffer) :
    Upholds config buffer stage (stage.recordViews config (Frame.views config buffer) count).1 := by
  induction count generalizing stage with
  | zero => exact .refl stage
  | succ count ih =>
      rw [recordViews_succ]
      refine (recordView_upholds config hbuffer).andThen fun next hnext => ih ?_
      have hsession := (holds_recordView config (Frame.views config buffer) stage).session
      rw [hnext] at hsession
      rw [hsession, hbuffer]

theorem pause_upholds (config : Config) (buffer : Text) (pacing : Pacing) (duration : Number)
    (stage : Stage) : Upholds config buffer stage (stage.pause pacing duration).1 := by
  unfold pause
  split
  · exact .refl stage
  · split
    · split
      · exact ⟨_, .note rfl stage, by rw [List.forall_mem_singleton]; trivial⟩
      · exact .refl stage
    · exact .refl stage

theorem elapseViews_upholds (config : Config) (pacing : Pacing) (duration : Number) {buffer : Text}
    {stage : Stage} (hbuffer : stage.session.buffer = buffer) :
    Upholds config buffer stage
      (haltOf (stage.elapseViews config pacing (Frame.views config buffer) duration)).1 := by
  rw [haltOf_elapseViews]
  cases config.frameCount duration with
  | error error => exact .refl stage
  | ok count =>
      exact (recordViews_upholds config count.toNat hbuffer).andThen
        fun next _ => pause_upholds config buffer pacing duration next

/-- Events of which the first one shows a buffer, as the frame at the place where a stage has arrived, and
the others follow it. -/
def Presents (config : Config) (before : Stage) (buffer : Text) (after : Stage) : Prop :=
  ∃ frame events, project config buffer before.frames.size = .ok frame ∧
    Extends config before events after ∧
    (∀ ahead, Heralded config ahead before.frames.size events) ∧
    lastShown? before.frames.size events = some (frame, before.frames.size)

theorem Upholds.presents {config : Config} {buffer : Text} {frame : Frame} {before after : Stage}
    (h : Upholds config buffer (before.note (.shown frame)) after)
    (hframe : project config buffer before.frames.size = .ok frame) :
    Presents config before buffer after := by
  obtain ⟨events, hextends, hfollows⟩ := h
  have hshown : Extends config before [.shown frame] (before.note (.shown frame)) := .note rfl before
  refine ⟨frame, .shown frame :: events, hframe, hshown.trans hextends, fun _ => ?_, ?_⟩
  · have hahead : ∀ next ∈ some frame, project config buffer before.frames.size = .ok next := by
      rintro _ ⟨⟩
      exact hframe
    have hannounced : Heralded config (some frame) before.frames.size events :=
      heralded_of_follows hahead hfollows
    exact hannounced
  · rw [lastShown?, lastShown?_of_follows hfollows, Option.none_or]

/-- With a preview that works, a buffer is shown unless it has no frame. -/
theorem showView_cases {setting : Setting} (hpreview : ∀ frame, setting.preview frame = none)
    (buffer : Text) (stage : Stage) :
    (∃ frame, project setting.config buffer stage.frames.size = .ok frame ∧
      stage.showView setting (Frame.views setting.config buffer)
        = (stage.note (.shown frame), none)) ∨
    ∃ error, project setting.config buffer stage.frames.size = .error error ∧
      stage.showView setting (Frame.views setting.config buffer)
        = (stage, some (.failed (.projection error))) := by
  unfold project showView
  cases (Frame.views setting.config buffer).at setting.config stage.frames.size with
  | error error => exact .inr ⟨error, rfl, rfl⟩
  | ok frame => exact .inl ⟨frame, rfl, by simp only [hpreview frame]⟩

section

variable {setting : Setting} (hpreview : ∀ frame, setting.preview frame = none)

include hpreview

/-- Whatever begins with showing the session presents it, or fails at once because it has no frame. -/
theorem presents_of_showView (stage : Stage) {next : Stage → Stage × Option Halt}
    (hnext : ∀ shown : Stage, shown.session = stage.session →
      Upholds setting.config stage.session.buffer shown (next shown).1) :
    let result := andThen (stage.showView setting
      (Frame.views setting.config stage.session.buffer)) next
    Presents setting.config stage stage.session.buffer result.1 ∨
      ∃ error, project setting.config stage.session.buffer stage.frames.size = .error error ∧
        result = (stage, some (.failed (.projection error))) := by
  rcases showView_cases hpreview stage.session.buffer stage with
    ⟨frame, hframe, hshown⟩ | ⟨error, herror, hfailed⟩
  · rw [hshown]
    exact .inl ((hnext (stage.note (.shown frame)) rfl).presents hframe)
  · rw [hfailed]
    exact .inr ⟨error, herror, rfl⟩

theorem advance_presents (duration : Number) (stage : Stage) :
    Presents setting.config stage stage.session.buffer
        (haltOf (stage.advance setting duration)).1 ∨
      ∃ error, project setting.config stage.session.buffer stage.frames.size = .error error ∧
        haltOf (stage.advance setting duration) = (stage, some (.failed (.projection error))) := by
  rw [haltOf_advance]
  exact presents_of_showView hpreview stage fun shown hsession =>
    elapseViews_upholds setting.config setting.pacing duration (congrArg Session.buffer hsession)

theorem flash_presents (stage : Stage) :
    Presents setting.config stage stage.session.buffer (stage.flash setting).1 ∨
      ∃ error, project setting.config stage.session.buffer stage.frames.size = .error error ∧
        stage.flash setting = (stage, some (.failed (.projection error))) := by
  rw [flash_eq]
  exact presents_of_showView hpreview stage fun shown hsession =>
    recordView_upholds setting.config (congrArg Session.buffer hsession)

end

/-! ## Moments -/

/-- A stage that went on from another one by cues: nothing was recorded first after showing another frame. -/
structure Reflects (config : Config) (before : Stage) (cues : List Cue) (events : List Event)
    (after : Stage) : Prop where
  log : Extends config before events after
  heralded : ∀ ahead, Heralded config ahead before.frames.size events
  session : after.session = before.session.after cues

/-- The preview shows the buffer on stage: what was shown last is its projection, at the place where the
recording was then.  If nothing was shown, no cue changed the buffer. -/
def Mirrors (config : Config) (before : Stage) (cues : List Cue) (events : List Event)
    (after : Stage) : Prop :=
  match lastShown? before.frames.size events with
  | some (frame, count) => project config after.session.buffer count = .ok frame
  | none => ∀ cue ∈ cues, ∀ session ∈ cue.session?, session.buffer = before.session.buffer

/-- What cues leave, with or without a halt: unless they failed, the preview shows the buffer on stage. -/
def Reflected (config : Config) (before : Stage) (cues : List Cue) (result : Stage × Option Halt) :
    Prop :=
  ∃ events, Reflects config before cues events result.1 ∧
    ((∀ failure, result.2 ≠ some (.failed failure)) → Mirrors config before cues events result.1)

end Stage

/-- Cues that leave the buffer alone leave the session with that buffer. -/
theorem Session.buffer_after {session : Session} {buffer : Text} {cues : List Cue}
    (hsession : session.buffer = buffer)
    (h : ∀ cue ∈ cues, ∀ next ∈ cue.session?, next.buffer = buffer) :
    (session.after cues).buffer = buffer := by
  induction cues generalizing session with
  | nil => exact hsession
  | cons cue rest ih =>
      rw [List.forall_mem_cons] at h
      rw [after_cons]
      refine ih ?_ h.2
      cases hcue : cue.session? with
      | none => exact hsession
      | some next => exact h.1 next hcue

namespace Stage

variable {config : Config} {before middle after : Stage} {cues later : List Cue}
  {events more : List Event}

theorem Reflects.refl (stage : Stage) : Reflects config stage [] [] stage :=
  ⟨.refl stage, fun _ => trivial, rfl⟩

theorem Reflects.trans (h : Reflects config before cues events middle)
    (h' : Reflects config middle later more after) :
    Reflects config before (cues ++ later) (events ++ more) after where
  log := h.log.trans h'.log
  heralded ahead := by
    refine heralded_append (h.heralded ahead) ?_
    rw [← h.log.size_frames]
    exact h'.heralded
  session := by rw [h'.session, h.session, Session.after_append]

theorem Mirrors.trans (hreflects : Reflects config before cues events middle)
    (hreflects' : Reflects config middle later more after)
    (h : Mirrors config before cues events middle) (h' : Mirrors config middle later more after) :
    Mirrors config before (cues ++ later) (events ++ more) after := by
  unfold Mirrors at h h' ⊢
  rw [lastShown?_append, ← hreflects.log.size_frames]
  cases hmore : lastShown? middle.frames.size more with
  | some shown =>
      rw [hmore] at h'
      exact h'
  | none =>
      rw [hmore] at h'
      have hsame : after.session.buffer = middle.session.buffer := by
        rw [hreflects'.session]
        exact Session.buffer_after rfl h'
      cases hevents : lastShown? before.frames.size events with
      | some shown =>
          rw [hevents] at h
          rw [Option.none_or]
          simp only at h ⊢
          rw [hsame]
          exact h
      | none =>
          rw [hevents] at h
          have hmiddle : middle.session.buffer = before.session.buffer := by
            rw [hreflects.session]
            exact Session.buffer_after rfl h
          rw [hmiddle] at h'
          intro cue hcue
          exact (List.mem_append.mp hcue).elim (h cue) (h' cue)

/-- Nothing happened but that the cue brought its session. -/
theorem Reflects.still {cue : Cue} (hjournal : after.journal = before.journal)
    (hframes : after.frames = before.frames) (hsession : after.session = before.session.after [cue]) :
    Reflects config before [cue] [] after :=
  ⟨.of_eq hjournal hframes, fun _ => trivial, hsession⟩

/-- A cue whose session is presented, or that fails because its session has no frame. -/
theorem reflected_of_presents {cue : Cue} {result : Stage × Option Halt}
    (hsession : result.1.session = before.session.after [cue])
    (h : Presents config (before.bring cue) (before.bring cue).session.buffer result.1 ∨
      ∃ error, project config (before.bring cue).session.buffer before.frames.size = .error error ∧
        result = (before.bring cue, some (.failed (.projection error)))) :
    Reflected config before [cue] result := by
  rcases h with ⟨frame, events, hframe, hextends, hheralded, hshown⟩ | ⟨error, -, rfl⟩
  · -- what was recorded and shown does not depend on the session that was on stage before
    have hplace : lastShown? before.frames.size events = some (frame, before.frames.size) := hshown
    have hbuffer : result.1.session.buffer = (before.bring cue).session.buffer :=
      congrArg Session.buffer hsession
    refine ⟨events, ⟨⟨hextends.journal, hextends.frames⟩, hheralded, hsession⟩, fun _ => ?_⟩
    rw [Mirrors, hplace, hbuffer]
    exact hframe
  · exact ⟨[], .still rfl rfl hsession, fun hsound => absurd rfl (hsound _)⟩

/-- A cue that shows and records nothing and leaves the buffer alone. -/
theorem reflected_of_quiet {cue : Cue} {halt : Option Halt}
    (hreflects : Reflects config before [cue] events after)
    (hquiet : lastShown? before.frames.size events = none)
    (hbuffer : ∀ next ∈ cue.session?, next.buffer = before.session.buffer) :
    Reflected config before [cue] (after, halt) := by
  refine ⟨events, hreflects, fun _ => ?_⟩
  rw [Mirrors, hquiet]
  exact List.forall_mem_singleton.mpr hbuffer

/-- Every moment leaves the preview with the buffer on stage, unless it fails. -/
theorem perform_reflected {setting : Setting} (hpreview : ∀ frame, setting.preview frame = none)
    {cue : Cue} {stage : Stage}
    (hturn : ∀ next, cue = .turn next → next.buffer = stage.session.buffer) :
    Reflected setting.config stage [cue] (stage.perform setting cue) := by
  have hsession : (stage.perform setting cue).1.session = stage.session.after [cue] :=
    session_perform setting cue stage
  cases cue with
  | key pressed session =>
      cases hdelay : setting.config.keyDelay pressed stage.rhythm.next.1 with
      | error error =>
          have hfailed : stage.perform setting (.key pressed session)
              = (stage.bring (.key pressed session), some (.failed (.arithmetic error))) := by
            simp only [perform, hdelay]
            rfl
          rw [hfailed] at hsession ⊢
          exact ⟨[], .still rfl rfl hsession, fun hsound => absurd rfl (hsound _)⟩
      | ok delay =>
          have hheld : stage.perform setting (.key pressed session)
              = haltOf ((stage.bring (.key pressed session)).advance setting (.real delay)) := by
            simp only [perform, hdelay]
            rfl
          rw [hheld] at hsession ⊢
          exact reflected_of_presents hsession (advance_presents hpreview _ _)
  | hold duration session =>
      exact reflected_of_presents hsession
        (advance_presents hpreview (.int duration) (stage.bring (.hold duration session)))
  | flash session =>
      exact reflected_of_presents hsession
        (flash_presents hpreview (stage.bring (.flash session)))
  | turn session =>
      refine reflected_of_quiet (.still rfl rfl hsession) rfl ?_
      rintro _ ⟨⟩
      exact hturn session rfl
  | log entry =>
      have hlogged : Reflects setting.config stage [.log entry] [.logged entry]
          (stage.note (.logged entry)) :=
        ⟨.note rfl stage, fun _ => trivial, hsession⟩
      refine reflected_of_quiet hlogged rfl ?_
      rintro _ ⟨⟩
  | halt reason =>
      refine reflected_of_quiet (.still rfl rfl hsession) rfl ?_
      rintro _ ⟨⟩

end Stage

/-! ## The sheet of a script -/

/-- Cues that change the session unseen leave the buffer alone. -/
def TurnsUnseen : Session → List Cue → Prop
  | _, [] => True
  | session, cue :: rest =>
    (∀ next, cue = .turn next → next.buffer = session.buffer) ∧
      TurnsUnseen (cue.session?.getD session) rest

/-- A cue that does not change the session unseen. -/
def Cue.Seen : Cue → Prop
  | .turn _ => False
  | _ => True

theorem turnsUnseen_cons {session : Session} {cue : Cue} {rest : List Cue} (hseen : cue.Seen)
    (h : TurnsUnseen (cue.session?.getD session) rest) : TurnsUnseen session (cue :: rest) := by
  refine ⟨?_, h⟩
  rintro next rfl
  exact hseen.elim

theorem turnsUnseen_append {session : Session} {cues later : List Cue}
    (h : TurnsUnseen session cues) (h' : TurnsUnseen (session.after cues) later) :
    TurnsUnseen session (cues ++ later) := by
  induction cues generalizing session with
  | nil => exact h'
  | cons cue rest ih => exact ⟨h.1, ih h.2 h'⟩

theorem turnsUnseen_of_forall {cues : List Cue} (h : ∀ cue ∈ cues, cue.Seen) (session : Session) :
    TurnsUnseen session cues := by
  induction cues generalizing session with
  | nil => trivial
  | cons cue rest ih =>
      rw [List.forall_mem_cons] at h
      exact turnsUnseen_cons h.1 (ih h.2 _)

namespace Session

variable (session : Session)

theorem turnsUnseen_typing (text : Text) : TurnsUnseen session (session.typing text) := by
  induction text generalizing session with
  | nil => trivial
  | cons c rest ih => exact turnsUnseen_cons trivial (ih _)

theorem turnsUnseen_deleting (count : Nat) : TurnsUnseen session (session.deleting count) := by
  induction count generalizing session with
  | zero => trivial
  | succ count ih =>
      rw [deleting]
      split
      · trivial
      · exact turnsUnseen_cons trivial (ih _)

theorem turnsUnseen_receiving (texts : List Text) : TurnsUnseen session (session.receiving texts) := by
  induction texts generalizing session with
  | nil => trivial
  | cons text rest ih => exact turnsUnseen_cons trivial (ih _)

theorem turnsUnseen_ending (command : Text) (ending : Ending) :
    TurnsUnseen session (session.ending command ending) := by
  cases ending with
  | halted halt => exact turnsUnseen_cons trivial trivial
  | quiet => exact turnsUnseen_cons trivial trivial
  | exited status =>
      simp only [Session.ending]
      split
      · exact turnsUnseen_cons trivial trivial
      · split
        · exact turnsUnseen_cons trivial trivial
        · exact turnsUnseen_cons trivial (turnsUnseen_cons trivial trivial)

/-- Starting a command is noted without a change of the buffer. -/
theorem turnsUnseen_running (commands : Commands) (command : Text) :
    TurnsUnseen session (session.running commands command) := by
  refine turnsUnseen_cons trivial ⟨?_, ?_⟩
  · rintro _ ⟨⟩
    rfl
  · cases commands session.commands command with
    | refused halt => exact turnsUnseen_cons trivial trivial
    | started texts ending =>
        have houtput : TurnsUnseen (session.start command)
            ((session.start command).receiving texts
              ++ ((session.start command).received texts).ending command ending) := by
          refine turnsUnseen_append ((session.start command).turnsUnseen_receiving texts) ?_
          rw [after_receiving]
          exact turnsUnseen_ending _ command ending
        exact houtput

theorem turnsUnseen_entering (commands : Commands) :
    TurnsUnseen session (session.entering commands) := by
  refine turnsUnseen_cons trivial ?_
  split
  · trivial
  · exact session.submit.2.turnsUnseen_running commands session.submit.1

theorem turnsUnseen_waiting (text : Text) (timeout : Number) :
    TurnsUnseen session (session.waiting text timeout) := by
  unfold waiting
  split
  · trivial
  · split
    · exact turnsUnseen_cons trivial (turnsUnseen_cons trivial trivial)
    · refine turnsUnseen_of_forall (fun cue hcue => ?_) session
      cases cue with
      | turn next => simp at hcue
      | _ => trivial

end Session

/-- Only copying and starting a command change the session unseen. -/
theorem Step.turnsUnseen_cues (commands : Commands) (session : Session) (step : Step) :
    TurnsUnseen session (step.cues commands session) := by
  cases step with
  | typeText text => exact session.turnsUnseen_typing text
  | delete count => exact session.turnsUnseen_deleting count
  | enter => exact session.turnsUnseen_entering commands
  | paste => exact turnsUnseen_cons trivial trivial
  | copy span =>
      refine ⟨?_, trivial⟩
      rintro _ ⟨⟩
      rfl
  | clear => exact turnsUnseen_append (session.turnsUnseen_typing _) (turnsUnseen_cons trivial trivial)
  | waitFor text timeout => exact session.turnsUnseen_waiting text timeout

theorem turnsUnseen_recordCues (commands : Commands) (session : Session) (record : Json) :
    TurnsUnseen session (recordCues commands session record) := by
  unfold recordCues
  split
  · exact Step.turnsUnseen_cues commands session _
  · exact turnsUnseen_cons trivial trivial

theorem turnsUnseen_cueSheet (commands : Commands) (session : Session) (records : List Json) :
    TurnsUnseen session (cueSheet commands session records) := by
  induction records generalizing session with
  | nil => trivial
  | cons record rest ih =>
      exact turnsUnseen_append (turnsUnseen_recordCues commands session record) (ih _)

/-! ## Runs -/

namespace Stage

variable {setting : Setting} (hpreview : ∀ frame, setting.preview frame = none)

include hpreview

/-- Cues are performed up to one that halts, and the preview follows. -/
theorem exists_reflected {cues : List Cue} {stage : Stage}
    (hturns : TurnsUnseen stage.session cues) :
    ∃ performed, performed <+: cues ∧
      ((stage.performAll setting cues).2 = none → performed = cues) ∧
      Reflected setting.config stage performed (stage.performAll setting cues) := by
  induction cues generalizing stage with
  | nil =>
      refine ⟨[], List.prefix_rfl, fun _ => rfl, [], .refl stage, fun _ => ?_⟩
      exact (nofun : ∀ cue ∈ ([] : List Cue), _)
  | cons cue rest ih =>
      have hcue := perform_reflected hpreview hturns.1
      have hsession := session_perform setting cue stage
      rw [performAll_cons]
      rcases hperform : stage.perform setting cue with ⟨next, _ | halt⟩
      · rw [hperform] at hcue hsession
        obtain ⟨events, hreflects, hmirrors⟩ := hcue
        have hturns' : TurnsUnseen next.session rest := by
          rw [hsession]
          exact hturns.2
        obtain ⟨performed, hprefix, hall, more, hreflects', hmirrors'⟩ := ih hturns'
        rw [andThen_none]
        refine ⟨cue :: performed, List.cons_prefix_cons.mpr ⟨rfl, hprefix⟩, fun hnone => ?_,
          events ++ more, hreflects.trans hreflects', fun hsound => ?_⟩
        · rw [hall hnone]
        · exact Mirrors.trans hreflects hreflects' (hmirrors nofun) (hmirrors' hsound)
      · rw [hperform] at hcue
        rw [andThen_some]
        exact ⟨[cue], List.cons_prefix_cons.mpr ⟨rfl, List.nil_prefix⟩, nofun, hcue⟩

/-- An error that is written to the terminal is shown and recorded as one frame, or the replay breaks off
because there is no such frame. -/
theorem exists_conclude_failed (stage : Stage) (failure : Failure) :
    (∃ frame, project setting.config (stage.withError failure.text).session.buffer stage.frames.size
        = .ok frame ∧
      stage.conclude setting (.failed failure) = (stage.showingError failure frame, .failure)) ∨
    ∃ error, project setting.config (stage.withError failure.text).session.buffer stage.frames.size
        = .error error ∧
      stage.conclude setting (.failed failure)
        = (stage.withError failure.text, .escaped (.failed (.projection error))) := by
  rcases showView_cases hpreview (stage.withError failure.text).session.buffer
    (stage.withError failure.text) with ⟨frame, hframe, -⟩ | ⟨error, herror, hfailed⟩
  · exact .inl ⟨frame, hframe, conclude_failed hframe (hpreview frame)⟩
  · refine .inr ⟨error, herror, ?_⟩
    rw [conclude, abort_eq_flash, flash_eq, hfailed]
    rfl

end Stage

namespace Stage

variable {config : Config} {before after stage : Stage} {events : List Event}

/-- What is recorded behind events that record so many buffers. -/
theorem Extends.getElem?_frames {buffer : Text} {frame : Frame} {earlier later : List Text}
    (h : Extends config before events after)
    (hbuffers : recordedBuffers events = earlier ++ buffer :: later)
    (hframe : project config buffer ((before.frames.size + earlier.length : Nat) : Int) = .ok frame) :
    after.frames[before.frames.size + earlier.length]? = some frame := by
  obtain ⟨frames, hframes, hproject⟩ := h.frames
  have hplace := congrArg (·[earlier.length]?) hproject
  simp only [hbuffers, projections, List.getElem?_map, List.getElem?_mapIdx,
    List.getElem?_append_right (Nat.le_refl _), Nat.sub_self, List.getElem?_cons_zero,
    Option.map_some, hframe] at hplace
  obtain ⟨recorded, hrecorded, hsame⟩ := Option.map_eq_some_iff.mp hplace
  obtain rfl : recorded = frame := Except.ok.inj hsame
  have hsize : before.frames.toList.length = before.frames.size := Array.length_toList
  rw [← Array.getElem?_toList, hframes, List.getElem?_append_right (by omega), hsize,
    Nat.add_sub_cancel_left, hrecorded]

theorem recordedBuffers_of_quiet {between : List Event}
    (hquiet : ∀ event ∈ between, event.isQuiet = true) : recordedBuffers between = [] := by
  induction between with
  | nil => rfl
  | cons event rest ih =>
      rw [List.forall_mem_cons] at hquiet
      cases event with
      | shown _ | recorded _ => cases hquiet.1
      | slept _ | logged _ => exact ih hquiet.2

/-- The frame that is recorded first after showing one is that frame. -/
theorem getElem?_of_heralded {frame : Frame} {buffer : Text} {earlier between later : List Event}
    (hextends : Extends config before events after)
    (hheralded : Heralded config none before.frames.size events)
    (hevents : events = earlier ++ .shown frame :: (between ++ .recorded buffer :: later))
    (hquiet : ∀ event ∈ between, event.isQuiet = true) :
    after.frames[before.frames.size + (recordedBuffers earlier).length]? = some frame := by
  subst hevents
  have hbuffers : recordedBuffers (earlier ++ .shown frame :: (between ++ .recorded buffer :: later))
      = recordedBuffers earlier ++ buffer :: recordedBuffers later := by
    have hbetween : recordedBuffers (.shown frame :: (between ++ .recorded buffer :: later))
        = recordedBuffers between ++ buffer :: recordedBuffers later :=
      recordedBuffers_append between (.recorded buffer :: later)
    rw [recordedBuffers_append, hbetween, recordedBuffers_of_quiet hquiet, List.nil_append]
  exact hextends.getElem?_frames hbuffers (hheralded.project_eq hquiet)

/-- An entry in the log changes nothing about what is shown. -/
theorem reflects_log (source : String) (level : Level) (message : Text) :
    Reflects config stage [] [.logged ⟨source, level, message⟩] (stage.log source level message) :=
  ⟨.note rfl stage, fun _ => trivial, rfl⟩

end Stage

/-- What the preview has shown when a replay of cues has ended in this way. -/
structure EndsMirrored (setting : Setting) (stage : Stage) (cues : List Cue)
    (replayed : Stage × Outcome) : Prop where
  /-- When it is completed, or interrupted in the middle of a step, the preview shows the buffer on
  stage, unless nothing changed it. -/
  success : replayed.2 = .success → ∃ performed events, performed <+: cues ∧
    ((stage.performAll setting cues).2 = none → performed = cues) ∧
    Stage.Reflects setting.config stage performed events replayed.1 ∧
    Stage.Mirrors setting.config stage performed events replayed.1
  /-- When it is aborted, the preview shows the buffer with the error. -/
  failure : replayed.2 = .failure →
    ∃ events frame count, Stage.Extends setting.config stage events replayed.1 ∧
      lastShown? stage.frames.size events = some (frame, count) ∧
      project setting.config replayed.1.session.buffer count = .ok frame
  /-- The preview is left behind only where the buffer with the error has no frame. -/
  escaped : ∀ halt, replayed.2 = .escaped halt → ∃ error, halt = .failed (.projection error) ∧
    project setting.config replayed.1.session.buffer replayed.1.frames.size = .error error
  /-- Each frame that is recorded first after the preview showed one is the frame shown. -/
  heralds : ∃ events, Stage.Extends setting.config stage events replayed.1 ∧
    ∀ earlier frame between buffer later,
      events = earlier ++ .shown frame :: (between ++ .recorded buffer :: later) →
      (∀ event ∈ between, event.isQuiet = true) →
      replayed.1.frames[stage.frames.size + (recordedBuffers earlier).length]? = some frame

namespace Stage

variable {setting : Setting}

/-- An error that has a frame is presented. -/
theorem showingError_presents {config : Config} {failure : Failure} {frame : Frame} {stage : Stage}
    (hframe : project config (stage.withError failure.text).session.buffer stage.frames.size
      = .ok frame) :
    Presents config stage (stage.withError failure.text).session.buffer
      (stage.showingError failure frame) := by
  let entry : LogEntry := ⟨"termreplay.replay", .error, "ERROR: " ++ failure.text⟩
  let buffer := (stage.withError failure.text).session.buffer
  have hbuffers : recordedBuffers [.logged entry, .shown frame, .recorded buffer] = [buffer] := rfl
  refine ⟨frame, [.logged entry, .shown frame, .recorded buffer], hframe, ⟨?_, [frame], ?_, ?_⟩,
    fun _ => ⟨?_, trivial⟩, rfl⟩
  · simp only [showingError, Array.toList_push, List.append_assoc, List.cons_append,
      List.nil_append]
    rfl
  · simp only [showingError, Array.toList_push]
  · simp only [hbuffers, projections, List.mapIdx_cons, List.mapIdx_nil, Nat.add_zero,
      List.map_cons, List.map_nil]
    exact congrArg (· :: []) hframe.symm
  · rintro _ ⟨⟩
    exact hframe

/-- Concluding a replay announces the frame of an error. -/
theorem conclude_heralded (hpreview : ∀ frame, setting.preview frame = none) (stage : Stage)
    (halt : Halt) : ∃ events, Extends setting.config stage events (stage.conclude setting halt).1 ∧
      ∀ ahead, Heralded setting.config ahead stage.frames.size events := by
  cases halt with
  | interrupted => exact ⟨_, .note rfl stage, fun _ => trivial⟩
  | endless => exact ⟨[], .refl stage, fun _ => trivial⟩
  | failed failure =>
      rcases exists_conclude_failed hpreview stage failure with
        ⟨frame, hframe, hended⟩ | ⟨error, -, hended⟩
      · obtain ⟨-, events, -, hextends, hheralded, -⟩ := showingError_presents hframe
        rw [hended]
        exact ⟨events, hextends, hheralded⟩
      · rw [hended]
        exact ⟨_, withError_extends setting.config failure.text stage, fun _ => trivial⟩

variable {cues : List Cue} {stage : Stage}

/-- So a whole replay announces its frames. -/
theorem close_heralded (hpreview : ∀ frame, setting.preview frame = none)
    (hturns : TurnsUnseen stage.session cues) :
    ∃ events, Extends setting.config stage events (close setting (stage.performAll setting cues)).1 ∧
      Heralded setting.config none stage.frames.size events := by
  obtain ⟨performed, -, -, events, hreflects, -⟩ := exists_reflected hpreview hturns
  rcases hcues : stage.performAll setting cues with ⟨ended, _ | halt⟩
  · rw [hcues] at hreflects
    exact ⟨events, hreflects.log, hreflects.heralded none⟩
  · rw [hcues] at hreflects
    obtain ⟨more, hextends, hheralded⟩ := conclude_heralded hpreview ended halt
    refine ⟨events ++ more, hreflects.log.trans hextends, ?_⟩
    refine heralded_append (hreflects.heralded none) ?_
    rw [← hreflects.log.size_frames]
    exact hheralded

/-- An interruption is told in the log, which changes nothing about what is shown. -/
theorem exists_mirrors_interrupted {performed : List Cue} {events : List Event} {ended : Stage}
    (hreflects : Reflects setting.config stage performed events ended)
    (hmirrors : Mirrors setting.config stage performed events ended) :
    ∃ events, Reflects setting.config stage performed events (ended.conclude setting .interrupted).1 ∧
      Mirrors setting.config stage performed events (ended.conclude setting .interrupted).1 := by
  have hlog : Reflects setting.config ended [] _ (ended.conclude setting .interrupted).1 :=
    reflects_log "termreplay.replay" .info "Replay interrupted"
  have hboth := hreflects.trans hlog
  have hshown := Mirrors.trans hreflects hlog hmirrors (nofun : ∀ cue ∈ ([] : List Cue), _)
  rw [List.append_nil] at hboth hshown
  exact ⟨_, hboth, hshown⟩

/-- An error that is written to the terminal is the last thing shown. -/
theorem exists_lastShown_showingError {failure : Failure} {frame : Frame} {performed : List Cue}
    {events : List Event} {ended : Stage}
    (hreflects : Reflects setting.config stage performed events ended)
    (hframe : project setting.config (ended.withError failure.text).session.buffer ended.frames.size
      = .ok frame) :
    ∃ events shown count, Extends setting.config stage events (ended.showingError failure frame) ∧
      lastShown? stage.frames.size events = some (shown, count) ∧
      project setting.config (ended.showingError failure frame).session.buffer count = .ok shown := by
  obtain ⟨shown, more, hshown, hextends, -, hlast⟩ := showingError_presents hframe
  refine ⟨events ++ more, shown, ended.frames.size, hreflects.log.trans hextends, ?_, hshown⟩
  rw [lastShown?_append, ← hreflects.log.size_frames]
  simp only [hlast, Option.some_or]

/-- The preview shows the buffer on stage when a replay of cues is completed or interrupted, and the error
when it is aborted. -/
theorem endsMirrored_close (hpreview : ∀ frame, setting.preview frame = none)
    (hturns : TurnsUnseen stage.session cues) :
    EndsMirrored setting stage cues (close setting (stage.performAll setting cues)) := by
  obtain ⟨performed, hprefix, hall, events, hreflects, hmirrors⟩ := exists_reflected hpreview hturns
  have hheralds : ∃ events,
      Extends setting.config stage events (close setting (stage.performAll setting cues)).1 ∧
      ∀ earlier frame between buffer later,
        events = earlier ++ .shown frame :: (between ++ .recorded buffer :: later) →
        (∀ event ∈ between, event.isQuiet = true) →
        (close setting (stage.performAll setting cues)).1.frames[
          stage.frames.size + (recordedBuffers earlier).length]? = some frame := by
    obtain ⟨events, hextends, hheralded⟩ := close_heralded hpreview hturns
    exact ⟨events, hextends, fun _ _ _ _ _ hevents hquiet =>
      getElem?_of_heralded hextends hheralded hevents hquiet⟩
  rcases hcues : stage.performAll setting cues with ⟨ended, _ | halt⟩
  · rw [hcues] at hreflects hmirrors hall hheralds
    exact ⟨fun _ => ⟨performed, events, hprefix, fun _ => hall rfl, hreflects, hmirrors nofun⟩,
      nofun, nofun, hheralds⟩
  · have hunfinished : (stage.performAll setting cues).2 = none → performed = cues := by
      rw [hcues]
      exact nofun
    rw [hcues] at hreflects hmirrors hheralds
    cases halt with
    | interrupted =>
        obtain ⟨events, hreflects, hmirrors⟩ := exists_mirrors_interrupted hreflects (hmirrors nofun)
        exact ⟨fun _ => ⟨performed, events, hprefix, hunfinished, hreflects, hmirrors⟩,
          nofun, nofun, hheralds⟩
    | endless => exact ⟨nofun, nofun, nofun, hheralds⟩
    | failed failure =>
        rcases exists_conclude_failed hpreview ended failure with
          ⟨frame, hframe, hended⟩ | ⟨error, herror, hended⟩ <;>
          simp only [close, hended] at hheralds ⊢
        · exact ⟨nofun, fun _ => exists_lastShown_showingError hreflects hframe, nofun, hheralds⟩
        · refine ⟨nofun, nofun, ?_, hheralds⟩
          rintro _ ⟨⟩
          exact ⟨error, rfl, herror⟩

end Stage

end Screencast
