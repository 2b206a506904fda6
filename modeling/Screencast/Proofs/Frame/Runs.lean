import Screencast.Frame.Run

/-!
# Where runs begin

The runs of frames follow each other without gaps, so that a run begins at the sum of the lengths before
it.  `getElem?_start` says that the frame there is the frame of the run.
-/

namespace Screencast

/-- Where the run with this number begins: at the sum of the lengths of the runs before it. -/
def Run.start : List Run → Nat → Nat
  | run :: runs, k + 1 => run.length + start runs k
  | _, _ => 0

@[simp] theorem Run.start_zero (runs : List Run) : Run.start runs 0 = 0 := by
  cases runs <;> rfl

@[simp] theorem Run.start_succ (run : Run) (runs : List Run) (k : Nat) :
    Run.start (run :: runs) (k + 1) = run.length + Run.start runs k := rfl

namespace Frame

/-- The runs that go on from frames of which the first one is known. -/
theorem getElem?_runsFrom {first : Frame} {look : Frame} {done rest : List Frame} {k : Nat} {run : Run}
    (hfirst : done[0]? = some first)
    (hrun : (runsFrom first look done.length rest)[k]? = some run) :
    (done ++ rest)[Run.start (runsFrom first look done.length rest) k]? = some run.frame := by
  induction rest generalizing first look done k with
  | nil =>
      cases k with
      | zero =>
          cases hrun
          rw [Run.start_zero, List.append_nil, hfirst]
      | succ k => cases hrun
  | cons frame rest ih =>
      rw [runsFrom] at hrun ⊢
      by_cases hsame : frame.visible = look
      · -- the run goes on with this frame
        have hdone : (done ++ [frame]).length = done.length + 1 := by
          rw [List.length_append, List.length_singleton]
        have hfirst' : (done ++ [frame])[0]? = some first := by
          rw [List.getElem?_append_left (List.getElem?_eq_some_iff.mp hfirst).1, hfirst]
        rw [if_pos hsame, ← hdone] at hrun ⊢
        rw [List.append_cons]
        exact ih hfirst' hrun
      · rw [if_neg hsame] at hrun ⊢
        cases k with
        | zero =>
            cases hrun
            rw [Run.start_zero, List.getElem?_append_left (List.getElem?_eq_some_iff.mp hfirst).1,
              hfirst]
        | succ k =>
            rw [List.getElem?_cons_succ] at hrun
            have hnext : ([frame] ++ rest)[_]? = some run.frame := ih rfl hrun
            rw [Run.start_succ, List.getElem?_append_right (Nat.le_add_right _ _),
              Nat.add_sub_cancel_left]
            exact hnext

/-- The frame of a run is the frame at which the run begins. -/
theorem getElem?_start {frames : List Frame} {k : Nat} {run : Run}
    (hrun : (runs frames)[k]? = some run) : frames[Run.start (runs frames) k]? = some run.frame := by
  cases frames with
  | nil => cases hrun
  | cons frame rest =>
      have hfirst : [frame][0]? = some frame := rfl
      exact getElem?_runsFrom hfirst hrun

theorem frame_mem_of_mem_runs {frames : List Frame} {run : Run} (h : run ∈ runs frames) :
    run.frame ∈ frames := by
  obtain ⟨k, hk⟩ := List.mem_iff_getElem?.mp h
  exact List.mem_of_getElem? (getElem?_start hk)

end Frame

end Screencast
