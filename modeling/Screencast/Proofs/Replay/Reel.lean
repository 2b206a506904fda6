import Screencast.Proofs.Replay.FrameLog
import Screencast.Proofs.Replay.Launching
import Screencast.Proofs.Replay.Steady

/-!
# The reel of a replay

A film does not tell what its buffers are recorded for.  A `Shot` does, as far as output is concerned:
it is marked if it shows a piece of output that was just received.  `Stage.reel` lists the shots of the
cues that are performed, and `Stage.shots` those of a whole run.

In a clear setting the frames of a run are the projections of its shots (`Setting.Clear.run_extends`), and
the marked ones are as many as the pieces that its commands deliver (`Setting.Clear.delivered_run`).
-/

namespace Screencast

/-- A buffer that is recorded. -/
structure Shot where
  buffer : Text
  /-- Whether it is recorded for a piece of output. -/
  piece : Bool
  deriving DecidableEq, Repr

/-- The shots that are not of pieces. -/
def withoutPieces (shots : List Shot) : List Shot := shots.filter fun shot => !shot.piece

@[simp] theorem withoutPieces_append (shots more : List Shot) :
    withoutPieces (shots ++ more) = withoutPieces shots ++ withoutPieces more :=
  List.filter_append ..

theorem withoutPieces_eq_nil {shots : List Shot} (h : ∀ shot ∈ shots, shot.piece = true) :
    withoutPieces shots = [] := by
  rw [withoutPieces, List.filter_eq_nil_iff]
  intro shot hshot
  simp [h shot hshot]

theorem length_eq_countP_add_withoutPieces (shots : List Shot) :
    shots.length = shots.countP Shot.piece + (withoutPieces shots).length := by
  rw [withoutPieces, ← List.countP_eq_length_filter,
    List.length_eq_countP_add_countP Shot.piece]
  simp

/-- Only pieces of output are shown for one frame each. -/
def Cue.isPiece : Cue → Bool
  | .flash _ => true
  | .key _ _ | .hold _ _ | .turn _ | .log _ | .halt _ => false

/-- The buffers that a cue calls for, with their marks. -/
def Cue.shots (config : Config) (rhythm : Twister) (cue : Cue) : List Shot :=
  (cue.film config rhythm).map fun buffer => ⟨buffer, cue.isPiece⟩

theorem Cue.map_buffer_shots (config : Config) (rhythm : Twister) (cue : Cue) :
    (cue.shots config rhythm).map Shot.buffer = cue.film config rhythm := by
  simp [shots, Function.comp_def]

/-- A cue that halts where everything can be shown calls for no frames. -/
theorem Cue.film_eq_nil {config : Config} {rhythm : Twister} {cue : Cue}
    (h : cue.stop? config rhythm ≠ none) : cue.film config rhythm = [] := by
  have hticks {duration : Number} (hstop : config.stop? duration ≠ none) :
      config.ticks duration = 0 := by
    unfold Config.stop? at hstop
    unfold Config.ticks
    cases hcount : config.frameCount duration with
    | error error => rfl
    | ok count => simp [hcount] at hstop
  cases cue with
  | key pressed session =>
      simp only [stop?] at h
      simp only [film, Config.keyTicks]
      cases hdelay : config.keyDelay pressed rhythm.next.1 with
      | error error => rfl
      | ok delay =>
          simp only [hdelay] at h
          simp only [hticks h, List.replicate_zero]
  | hold duration session => rw [film, hticks h, List.replicate_zero]
  | halt reason => rfl
  | flash _ | turn _ | log _ => exact absurd rfl h

namespace Stage

variable (setting : Setting)

/-- The shots of the cues that are performed without a halt. -/
def reel : List Cue → Stage → List Shot
  | [], _ => []
  | cue :: rest, stage =>
    match stage.perform setting cue with
    | (next, none) => cue.shots setting.config stage.rhythm ++ reel rest next
    | (_, some _) => []

/-- The shots of a run, that of the error included. -/
def shots (records : List Json) (stage : Stage) : List Shot :=
  stage.reel setting (cueSheet setting.commands stage.session records)
    ++ ((stage.run setting records).2.errorFilm (stage.run setting records).1.session).map
      fun buffer => ⟨buffer, false⟩

variable {setting} {stage next : Stage} {cue : Cue} {cues rest : List Cue}

theorem reel_cons_of_none (h : stage.perform setting cue = (next, none)) :
    stage.reel setting (cue :: rest)
      = cue.shots setting.config stage.rhythm ++ next.reel setting rest := by
  rw [reel, h]

theorem reel_cons_of_some {halt : Halt} (h : stage.perform setting cue = (next, some halt)) :
    stage.reel setting (cue :: rest) = [] := by
  rw [reel, h]

theorem reel_append_of_none (h : stage.performAll setting cues = (next, none)) :
    stage.reel setting (cues ++ rest) = stage.reel setting cues ++ next.reel setting rest := by
  induction cues generalizing stage with
  | nil =>
      obtain rfl : stage = next := congrArg Prod.fst h
      rfl
  | cons cue cues ih =>
      rw [performAll_cons] at h
      obtain ⟨first, hcue, hrest⟩ := andThen_eq_none h
      rw [List.cons_append, reel_cons_of_none hcue, reel_cons_of_none hcue, ih hrest,
        List.append_assoc]

theorem reel_append_of_some {halt : Halt}
    (h : stage.performAll setting cues = (next, some halt)) :
    stage.reel setting (cues ++ rest) = stage.reel setting cues := by
  induction cues generalizing stage with
  | nil => cases h
  | cons cue cues ih =>
      rw [performAll_cons] at h
      rcases hcue : stage.perform setting cue with ⟨first, _ | reason⟩
      · rw [hcue, andThen_none] at h
        rw [List.cons_append, reel_cons_of_none hcue, reel_cons_of_none hcue, ih h]
      · rw [List.cons_append, reel_cons_of_some hcue, reel_cons_of_some hcue]

/-- The mark of a shot is that of a cue. -/
theorem exists_of_mem_reel {shot : Shot} (h : shot ∈ stage.reel setting cues) :
    ∃ cue ∈ cues, shot.piece = cue.isPiece := by
  induction cues generalizing stage with
  | nil => cases h
  | cons cue rest ih =>
      rcases hcue : stage.perform setting cue with ⟨next, _ | halt⟩
      · rw [reel_cons_of_none hcue, List.mem_append] at h
        rcases h with h | h
        · obtain ⟨buffer, -, rfl⟩ := List.mem_map.mp h
          exact ⟨cue, List.mem_cons_self .., rfl⟩
        · obtain ⟨found, hfound, hpiece⟩ := ih h
          exact ⟨found, List.mem_cons_of_mem _ hfound, hpiece⟩
      · rw [reel_cons_of_some hcue] at h
        cases h

end Stage

/-! ## The frames of a reel -/

namespace Setting.Clear

open Stage

variable {setting : Setting} (h : setting.Clear)

include h

/-- Performed cues record their reel. -/
theorem performAll_extends {cues : List Cue} (hpaced : ∀ cue ∈ cues, cue.Paced) (stage : Stage) :
    ∃ events, Extends setting.config stage events (stage.performAll setting cues).1 ∧
      recordedBuffers events = (stage.reel setting cues).map Shot.buffer := by
  induction cues generalizing stage with
  | nil => exact ⟨[], .refl stage, rfl⟩
  | cons cue rest ih =>
      obtain ⟨hcue, hrest⟩ := List.forall_mem_cons.mp hpaced
      have hstop := h.perform hcue stage
      obtain ⟨events, hextends, hfirst, hall⟩ := perform_films setting cue stage
      rw [performAll_cons]
      rcases hnext : stage.perform setting cue with ⟨next, _ | halt⟩ <;>
        rw [hnext] at hextends hall hstop
      · obtain ⟨later, hlater, hrecorded⟩ := ih hrest next
        refine ⟨events ++ later, hextends.trans hlater, ?_⟩
        rw [recordedBuffers_append, hall rfl, hrecorded, reel_cons_of_none hnext, List.map_append,
          Cue.map_buffer_shots]
      · -- what halts has called for no frames
        have hnone : cue.film setting.config stage.rhythm = [] :=
          Cue.film_eq_nil (by rw [← hstop]; exact nofun)
        rw [hnone] at hfirst
        exact ⟨events, hextends, by
          rw [reel_cons_of_some hnext, List.prefix_nil.mp hfirst, List.map_nil]⟩

/-- A run records its shots. -/
theorem run_extends (records : List Json) (stage : Stage) :
    ∃ events, Extends setting.config stage events (stage.run setting records).1 ∧
      recordedBuffers events = (stage.shots setting records).map Shot.buffer := by
  obtain ⟨events, hextends, hrecorded⟩ :=
    h.performAll_extends (cueSheet_paced setting.commands stage.session records) stage
  rw [shots, List.map_append, ← hrecorded, List.map_map]
  rw [run_eq_conclude, performRecords_eq_performAll]
  rcases hended : stage.performAll setting (cueSheet setting.commands stage.session records) with
    ⟨ended, _ | halt⟩ <;> rw [hended] at hextends
  · exact ⟨events, hextends, by simp [Outcome.errorFilm]⟩
  · obtain ⟨later, hlater, herror⟩ := conclude_extends setting ended halt
    refine ⟨events ++ later, hextends.trans hlater, ?_⟩
    rw [recordedBuffers_append, herror]
    simp [Function.comp_def]

end Setting.Clear

end Screencast
