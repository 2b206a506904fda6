import Mathlib.Data.List.GetD
import Mathlib.Data.List.Induction
import Mathlib.Data.Nat.Init
import Mathlib.Tactic.ByContra
import Screencast.Proofs.Frame.Runs

/-!
# Runs as a grouping

`Grouping` says what it takes for runs to group frames: they follow each other without gaps, each holds
frames that look like its first one, and no two neighbours look alike.  The runs of frames are the only
grouping: `Frame.runs_maximal`.

A frame looks like another one exactly if every row of the screen does, whatever the number of their
lines: `Frame.visible_eq_iff`.
-/

namespace Screencast

/-! ## Looks -/

namespace Text

variable {α : Type}

/-- Empty lines at the bottom are no different from none. -/
theorem getD_dropRightWhile_isEmpty (lines : List (List α)) (k : Nat) :
    (dropRightWhile List.isEmpty lines).getD k [] = lines.getD k [] := by
  induction lines using List.reverseRecOn with
  | nil => rfl
  | append_singleton lines last ih =>
      rw [dropRightWhile_concat]
      split
      · next hempty =>
        rw [ih, List.isEmpty_iff.mp hempty]
        by_cases hk : k < lines.length
        · rw [List.getD_append _ _ _ _ hk]
        · have hle : lines.length ≤ k := by omega
          rw [List.getD_eq_default _ _ hle, List.getD_append_right _ _ _ _ hle]
          cases k - lines.length <;> rfl
      · rfl

theorem ne_nil_of_getLast?_dropRightWhile_isEmpty (lines : List (List α)) {line : List α}
    (h : (dropRightWhile List.isEmpty lines).getLast? = some line) : line ≠ [] := by
  induction lines using List.reverseRecOn with
  | nil => cases h
  | append_singleton lines last ih =>
      rw [dropRightWhile_concat] at h
      split at h
      · exact ih h
      · next hempty =>
        rw [List.getLast?_concat] at h
        obtain rfl := Option.some.inj h
        intro hnil
        exact hempty (List.isEmpty_iff.mpr hnil)

/-- Lists of lines are as long as each other if neither ends with an empty line and all lines agree. -/
theorem length_le_of_getD_eq {lines others : List (List α)}
    (hlast : ∀ line, lines.getLast? = some line → line ≠ [])
    (h : ∀ k, lines.getD k [] = others.getD k []) : lines.length ≤ others.length := by
  by_contra hlt
  have hle : others.length ≤ lines.length - 1 := by omega
  have hk : lines.length - 1 < lines.length := by omega
  have hnil : lines.getD (lines.length - 1) [] = [] := by
    rw [h, List.getD_eq_default _ _ hle]
  apply hlast (lines.getD (lines.length - 1) []) _ hnil
  rw [List.getLast?_eq_getElem?, List.getElem?_eq_getElem hk, List.getD_eq_getElem _ _ hk]

theorem dropRightWhile_isEmpty_eq_iff {lines others : List (List α)} :
    dropRightWhile List.isEmpty lines = dropRightWhile List.isEmpty others ↔
      ∀ k, lines.getD k [] = others.getD k [] := by
  constructor
  · intro h k
    rw [← getD_dropRightWhile_isEmpty lines, h, getD_dropRightWhile_isEmpty]
  · intro h
    have hsame (k : Nat) : (dropRightWhile List.isEmpty lines).getD k []
        = (dropRightWhile List.isEmpty others).getD k [] := by
      rw [getD_dropRightWhile_isEmpty, h, getD_dropRightWhile_isEmpty]
    have hlength : (dropRightWhile List.isEmpty lines).length
        = (dropRightWhile List.isEmpty others).length := by
      apply Nat.le_antisymm
      · exact length_le_of_getD_eq
          (fun _ => ne_nil_of_getLast?_dropRightWhile_isEmpty lines) hsame
      · exact length_le_of_getD_eq
          (fun _ => ne_nil_of_getLast?_dropRightWhile_isEmpty others) fun k => (hsame k).symm
    apply List.ext_getElem hlength
    intro k hk hk'
    rw [← List.getD_eq_getElem _ [] hk, ← List.getD_eq_getElem _ [] hk', hsame]

end Text

namespace Frame

/-- What can be seen in a row of the screen: nothing below the last line. -/
def row (frame : Frame) (k : Nat) : Text :=
  Text.dropRightWhile (· = CodePoint.char ' ') (frame.getD k [])

/-- Two frames look the same exactly if each row of the screen does. -/
theorem visible_eq_iff {frame other : Frame} :
    frame.visible = other.visible ↔ ∀ k, frame.row k = other.row k := by
  have hrow (frame : Frame) (k : Nat) :
      (frame.map (Text.dropRightWhile (· = CodePoint.char ' '))).getD k [] = frame.row k :=
    List.getD_map frame [] (Text.dropRightWhile (· = CodePoint.char ' '))
  have hvisible : frame.visible = other.visible ↔ _ := Text.dropRightWhile_isEmpty_eq_iff
  simp only [hvisible, hrow]

theorem visible_ne_iff {frame other : Frame} :
    frame.visible ≠ other.visible ↔ ∃ k, frame.row k ≠ other.row k := by
  rw [ne_eq, visible_eq_iff, not_forall]

end Frame

/-! ## Groupings -/

/-- Runs that group frames. -/
structure Grouping (frames : List Frame) (runs : List Run) : Prop where
  lengths : ∀ run ∈ runs, 1 ≤ run.length
  /-- The lengths add up to the number of frames. -/
  total : Run.start runs runs.length = frames.length
  /-- A run is shown by the frame at which it begins. -/
  first : ∀ k run, runs[k]? = some run → frames[Run.start runs k]? = some run.frame
  /-- All frames of a run look like the one that is shown, in every row. -/
  alike : ∀ k run, runs[k]? = some run → ∀ i < run.length,
    ∃ frame, frames[Run.start runs k + i]? = some frame ∧ ∀ row, frame.row row = run.frame.row row
  /-- Neighbouring runs look different in some row. -/
  apart : ∀ k run next, runs[k]? = some run → runs[k + 1]? = some next →
    ∃ row, run.frame.row row ≠ next.frame.row row

namespace Grouping

variable {frames more others : List Frame} {run : Run} {first : Frame} {rest : List Run}

theorem nil : Grouping [] [] := ⟨nofun, rfl, nofun, nofun, nofun⟩

/-- The first run of a grouping, and the grouping of the frames behind it. -/
theorem uncons (h : Grouping frames (run :: rest)) : ∃ more others,
    frames = run.frame :: (more ++ others) ∧ run.length = more.length + 1 ∧
      (∀ frame ∈ more, frame.visible = run.frame.visible) ∧
      (∀ frame, others.head? = some frame → frame.visible ≠ run.frame.visible) ∧
      Grouping others rest := by
  have hlength := h.lengths run List.mem_cons_self
  have htotal : run.length + Run.start rest rest.length = frames.length := h.total
  have hfirst : frames[0]? = some run.frame := h.first 0 run rfl
  obtain ⟨tail, rfl⟩ : ∃ tail, frames = run.frame :: tail := by
    cases frames with
    | nil => cases hfirst
    | cons frame tail => exact ⟨tail, by rw [Option.some.inj hfirst]⟩
  rw [List.length_cons] at htotal
  -- what stands at a place behind the first run
  have hbehind (i : Nat) : (run.frame :: tail)[run.length + i]? = (tail.drop (run.length - 1))[i]? := by
    have hplace : run.length + i = run.length - 1 + i + 1 := by omega
    rw [hplace, List.getElem?_cons_succ, List.getElem?_drop]
  have hrest : Grouping (tail.drop (run.length - 1)) rest := by
    refine ⟨fun next hnext => h.lengths next (List.mem_cons_of_mem _ hnext), ?_, ?_, ?_, ?_⟩
    · rw [List.length_drop]
      omega
    · intro k next hnext
      rw [← hbehind]
      exact h.first (k + 1) next hnext
    · intro k next hnext i hi
      rw [← hbehind, ← Nat.add_assoc]
      exact h.alike (k + 1) next hnext i hi
    · intro k next later hnext hlater
      exact h.apart (k + 1) next later hnext hlater
  refine ⟨tail.take (run.length - 1), tail.drop (run.length - 1), ?_, ?_, ?_, ?_, hrest⟩
  · rw [List.take_append_drop]
  · rw [List.length_take]
    omega
  · intro frame hframe
    obtain ⟨i, hi⟩ := List.mem_iff_getElem?.mp hframe
    rw [List.getElem?_take] at hi
    split at hi
    · next hlt =>
      obtain ⟨found, hfound, hlook⟩ := h.alike 0 run rfl (i + 1) (by omega)
      rw [Run.start_zero, Nat.zero_add, List.getElem?_cons_succ, hi] at hfound
      rw [Option.some.inj hfound]
      exact Frame.visible_eq_iff.mpr hlook
    · cases hi
  · intro frame hframe
    cases rest with
    | nil =>
        have hnil : tail.drop (run.length - 1) = [] := List.eq_nil_of_length_eq_zero hrest.total.symm
        rw [hnil] at hframe
        cases hframe
    | cons next rest =>
        have hnext := hrest.first 0 next rfl
        rw [Run.start_zero, ← List.head?_eq_getElem?, hframe] at hnext
        rw [Option.some.inj hnext]
        exact (Frame.visible_ne_iff.mpr (h.apart 0 run next rfl rfl)).symm

/-- A grouping with another run in front. -/
theorem cons (h : Grouping others rest) (hmore : ∀ frame ∈ more, frame.visible = first.visible)
    (hnext : ∀ next, rest.head? = some next → first.visible ≠ next.frame.visible) :
    Grouping (first :: (more ++ others)) (⟨first, more.length + 1⟩ :: rest) := by
  have hbehind (i : Nat) :
      (first :: (more ++ others))[more.length + 1 + i]? = others[i]? := by
    have hplace : more.length + 1 + i = more.length + i + 1 := by omega
    rw [hplace, List.getElem?_cons_succ, List.getElem?_append_right (by omega),
      Nat.add_sub_cancel_left]
  refine ⟨?_, ?_, ?_, ?_, ?_⟩
  · rw [List.forall_mem_cons]
    exact ⟨Nat.le_add_left 1 _, h.lengths⟩
  · rw [List.length_cons, Run.start_succ, h.total, List.length_cons, List.length_append,
      Nat.add_right_comm]
  · intro k run hrun
    cases k with
    | zero =>
        cases hrun
        rfl
    | succ k =>
        rw [Run.start_succ, hbehind]
        exact h.first k run hrun
  · intro k run hrun i hi
    cases k with
    | zero =>
        cases hrun
        rw [Run.start_zero, Nat.zero_add]
        cases i with
        | zero => exact ⟨first, rfl, fun _ => rfl⟩
        | succ i =>
            have hi : i < more.length := by
              rw [Nat.add_lt_add_iff_right] at hi
              exact hi
            refine ⟨more[i], ?_, Frame.visible_eq_iff.mp (hmore _ (List.getElem_mem hi))⟩
            rw [List.getElem?_cons_succ, List.getElem?_append_left hi, List.getElem?_eq_getElem hi]
    | succ k =>
        rw [Run.start_succ, Nat.add_assoc, hbehind]
        exact h.alike k run hrun i hi
  · intro k run next hrun hlater
    cases k with
    | zero =>
        cases hrun
        apply Frame.visible_ne_iff.mp
        apply hnext
        rw [List.head?_eq_getElem?]
        exact hlater
    | succ k => exact h.apart k run next hrun hlater

end Grouping

/-! ## The runs of frames -/

namespace Frame

variable {frames : List Frame}

/-- A run goes on for as long as the frames look like its first one. -/
theorem runsFrom_append {look : Frame} {more others : List Frame}
    (hmore : ∀ frame ∈ more, frame.visible = look)
    (hothers : ∀ frame, others.head? = some frame → frame.visible ≠ look) (first : Frame)
    (length : Nat) :
    runsFrom first look length (more ++ others) = ⟨first, length + more.length⟩ :: runs others := by
  induction more generalizing length with
  | nil =>
      cases others with
      | nil => rfl
      | cons frame rest =>
          rw [List.nil_append, runsFrom, if_neg (hothers frame rfl)]
          rfl
  | cons frame more ih =>
      rw [List.forall_mem_cons] at hmore
      rw [List.cons_append, runsFrom, if_pos hmore.1, ih hmore.2, List.length_cons, Nat.add_assoc,
        Nat.add_comm 1]

theorem runs_append {first : Frame} {more others : List Frame}
    (hmore : ∀ frame ∈ more, frame.visible = first.visible)
    (hothers : ∀ frame, others.head? = some frame → frame.visible ≠ first.visible) :
    runs (first :: (more ++ others)) = ⟨first, more.length + 1⟩ :: runs others := by
  rw [runs, runsFrom_append hmore hothers, Nat.add_comm 1]

/-- Frames begin with some that have a look, after which there are none or one with another look. -/
theorem exists_first_run (look : Frame) (frames : List Frame) : ∃ more others,
    frames = more ++ others ∧ (∀ frame ∈ more, frame.visible = look) ∧
      ∀ frame, others.head? = some frame → frame.visible ≠ look := by
  induction frames with
  | nil => exact ⟨[], [], rfl, nofun, nofun⟩
  | cons frame rest ih =>
      by_cases hsame : frame.visible = look
      · obtain ⟨more, others, rfl, hmore, hothers⟩ := ih
        exact ⟨frame :: more, others, rfl, List.forall_mem_cons.mpr ⟨hsame, hmore⟩, hothers⟩
      · refine ⟨[], frame :: rest, rfl, nofun, ?_⟩
        rintro _ ⟨⟩
        exact hsame

/-- The runs of frames group them. -/
theorem grouping_runs (frames : List Frame) : Grouping frames (runs frames) := by
  induction hlength : frames.length using Nat.strongRecOn generalizing frames with
  | _ length ih =>
      cases frames with
      | nil => exact .nil
      | cons first rest =>
          obtain ⟨more, others, rfl, hmore, hothers⟩ := exists_first_run first.visible rest
          have hshorter : others.length < length := by
            rw [List.length_cons, List.length_append] at hlength
            omega
          rw [runs_append hmore hothers]
          refine (ih _ hshorter others rfl).cons hmore ?_
          intro next hnext
          -- the next run begins with the frame at which the look changes
          rw [List.head?_eq_getElem?] at hnext
          have hbegins := getElem?_start hnext
          rw [Run.start_zero, ← List.head?_eq_getElem?] at hbegins
          exact (hothers _ hbegins).symm

/-- Nothing else groups them. -/
theorem eq_runs_of_grouping {groups : List Run} (h : Grouping frames groups) :
    groups = runs frames := by
  induction groups generalizing frames with
  | nil =>
      have hnil : frames = [] := List.eq_nil_of_length_eq_zero h.total.symm
      rw [hnil]
      rfl
  | cons run rest ih =>
      obtain ⟨more, others, rfl, hlength, hmore, hothers, hrest⟩ := h.uncons
      rw [runs_append hmore hothers, ih hrest, ← hlength]

/-- The frames that stand for groups are groups of their own. -/
theorem runs_map_frame {groups : List Run} (h : Grouping frames groups) :
    runs (groups.map Run.frame) = groups.map fun run => ⟨run.frame, 1⟩ := by
  induction groups generalizing frames with
  | nil => rfl
  | cons run rest ih =>
      obtain ⟨more, others, rfl, hlength, hmore, hothers, hrest⟩ := h.uncons
      have hnext : ∀ frame, (rest.map Run.frame).head? = some frame →
          frame.visible ≠ run.frame.visible := by
        intro frame hframe
        rw [List.head?_map, Option.map_eq_some_iff] at hframe
        obtain ⟨next, hnext, rfl⟩ := hframe
        rw [List.head?_eq_getElem?] at hnext
        exact (visible_ne_iff.mpr (h.apart 0 run next rfl hnext)).symm
      have hsplit : runs (run.frame :: ([] ++ rest.map Run.frame)) = _ :=
        runs_append nofun hnext
      rw [List.map_cons, List.map_cons, ← ih hrest]
      exact hsplit

/-- The frames of runs, each for as long as its run lasts. -/
def replay (groups : List Run) : List Frame :=
  groups.flatMap fun run => List.replicate run.length run.frame

/-- Groups that are played look like what they group. -/
theorem map_visible_replay {groups : List Run} (h : Grouping frames groups) :
    (replay groups).map visible = frames.map visible := by
  induction groups generalizing frames with
  | nil =>
      have hnil : frames = [] := List.eq_nil_of_length_eq_zero h.total.symm
      rw [hnil]
      rfl
  | cons run rest ih =>
      obtain ⟨more, others, rfl, hlength, hmore, -, hrest⟩ := h.uncons
      have hshown : more.map visible = List.replicate more.length run.frame.visible := by
        rw [List.eq_replicate_iff, List.length_map]
        refine ⟨rfl, ?_⟩
        intro look hlook
        obtain ⟨frame, hframe, rfl⟩ := List.mem_map.mp hlook
        exact hmore frame hframe
      have hlater : (rest.flatMap fun run => List.replicate run.length run.frame).map visible
          = others.map visible := ih hrest
      rw [replay, List.flatMap_cons, List.map_append, hlater, List.map_replicate, hlength,
        List.replicate_succ, List.map_cons, List.map_append, hshown, List.cons_append]

/-- What the runs of frames are. -/
structure RunsMaximal (frames : List Frame) : Prop where
  groups : Grouping frames (runs frames)
  unique : ∀ groups, Grouping frames groups → groups = runs frames
  /-- Grouped again, each run is a run of one frame. -/
  again : runs ((runs frames).map Run.frame) = (runs frames).map fun run => ⟨run.frame, 1⟩
  /-- Played run by run, the screen looks the same at every tick, in every row. -/
  played : ∀ tick k : Nat, (replay (runs frames))[tick]?.map (fun frame => frame.row k)
    = frames[tick]?.map fun frame => frame.row k

/-- The runs of frames are the one way to group those that look alike, as far as they go. -/
theorem runs_maximal (frames : List Frame) : RunsMaximal frames where
  groups := grouping_runs frames
  unique _ := eq_runs_of_grouping
  again := runs_map_frame (grouping_runs frames)
  played tick k := by
    have hlooks := congrArg (·[tick]?) (map_visible_replay (grouping_runs frames))
    simp only [List.getElem?_map] at hlooks
    cases hshown : (replay (runs frames))[tick]? with
    | none =>
        rw [hshown] at hlooks
        rw [Option.map_eq_none_iff.mp hlooks.symm]
    | some shown =>
        rw [hshown] at hlooks
        obtain ⟨frame, hframe, hlook⟩ := Option.map_eq_some_iff.mp hlooks.symm
        rw [hframe, Option.map_some, Option.map_some, visible_eq_iff.mp hlook]

example : runs [["$ "], ["$", ""], ["$ ls"]] = [⟨["$ "], 2⟩, ⟨["$ ls"], 1⟩] := by decide

end Frame

end Screencast
