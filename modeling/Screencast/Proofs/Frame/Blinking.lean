import Mathlib.Algebra.Ring.Periodic
import Mathlib.Data.Int.ConditionallyCompleteOrder
import Mathlib.Data.Int.Interval
import Screencast.Frame.Projection
import Screencast.Proofs.Number.Whole

/-!
# The blinking cursor

Whether the cursor is shown depends only on the place of a frame in its interval: it is shown up to the
middle, and hidden behind it.  A window as long as the interval has every place once, wherever it begins
(`Frame.card_filter_window`), so all such windows show the cursor equally often:
`Config.cursorVisible_blinks`.

The middle of an odd interval lies between two frames.  It is still a binary number, since the interval
is the rounded value of one: `Config.half_blinkFrames`.
-/

namespace Screencast

open Finset

/-! ## Places in a window -/

namespace Frame

variable {period : Int}

/-- The frames of a window that is not longer than the period are at different places. -/
theorem injOn_place (start : Int) (hperiod : 0 ≤ period) :
    Set.InjOn (· % period) (Ico start (start + period) : Finset Int) := by
  refine injOn_of_card_image_eq ?_
  rw [Int.image_Ico_emod start period hperiod, Int.card_Ico, Int.card_Ico]
  congr 1
  ring

/-- A window as long as the period has every place once. -/
theorem card_filter_window (start : Int) (hperiod : 0 ≤ period) (p : Int → Prop) [DecidablePred p] :
    #{count ∈ Ico start (start + period) | p (count % period)} = #{place ∈ Ico 0 period | p place} := by
  have hplaces : {place ∈ Ico 0 period | p place}
      = ({count ∈ Ico start (start + period) | p (count % period)}).image (· % period) := by
    rw [← Int.image_Ico_emod start period hperiod, filter_image]
  rw [hplaces, card_image_of_injOn]
  exact (injOn_place start hperiod).mono (coe_subset.mpr (filter_subset _ _))

/-- The places up to the middle. -/
theorem card_firstHalf (hperiod : 1 ≤ period) :
    (#{place ∈ Ico 0 period | 2 * place ≤ period} : Int) = period / 2 + 1 := by
  have hhalf : {place ∈ Ico 0 period | 2 * place ≤ period} = Ico 0 (period / 2 + 1) := by
    ext place
    simp only [mem_filter, mem_Ico]
    omega
  rw [hhalf, Int.card_Ico]
  omega

end Frame

namespace Config

variable {config : Config} {interval period : Int}

/-! ## The interval -/

/-- The half of an interval is computed without a rounding. -/
theorem half_blinkFrames (hinterval : config.blinkFrames = .ok interval) (hpos : 0 ≤ interval) :
    ∃ half, (Number.int interval).div (.int 2) = .ok half ∧ half.Amounts (interval / 2) := by
  obtain ⟨product, -, hrest⟩ := exists_of_bind_eq_ok hinterval
  obtain ⟨frames, hframes, hround⟩ := exists_of_bind_eq_ok hrest
  have hform : frames.InForm := Number.inForm_div (by decide) hframes
  obtain ⟨significand, exponent, hwhole, hvalue⟩ := hform.representable_round hround
  obtain ⟨n, rfl⟩ := Int.eq_ofNat_of_zero_le hpos
  exact Number.half_amounts hvalue hwhole

theorem cursorVisible_eq (hglyph : config.cursorGlyph.isSet = true) (hblink : 0 < config.cursorBlink)
    (hinterval : config.blinkFrames = .ok interval) (count : Int) :
    config.cursorVisible count = .ok (decide (2 * (count % max 1 interval) ≤ interval)) := by
  simp only [cursorVisible, hglyph, hblink.ne', hinterval, bind, Except.bind, pure, Except.pure,
    Bool.not_true, Bool.false_eq_true, if_false]

/-! ## The period -/

/-- The frames of a window at which the cursor is shown. -/
def shownIn (config : Config) (window : Finset Int) : Finset Int :=
  {count ∈ window | config.cursorVisible count = .ok true}

section Phase

variable (hperiod : 1 ≤ period)
  (hphase : ∀ count, config.cursorVisible count = .ok (decide (2 * (count % period) ≤ period)))

include hphase

theorem periodic_cursorVisible : Function.Periodic config.cursorVisible period := by
  intro count
  rw [hphase, hphase, Int.add_emod_right]

/-- The cursor is shown up to the half of the period, which may lie between two frames. -/
theorem cursorVisible_iff_le_half (count : Int) :
    config.cursorVisible count = .ok true ↔ ((count % period : Int) : ℚ) ≤ period / 2 := by
  rw [hphase, Except.ok.injEq, decide_eq_true_iff, le_div_iff₀ two_pos, mul_comm]
  norm_cast

/-- A buffer that stays the same is shown in the same way again after a period. -/
theorem periodic_project (buffer : Text) : Function.Periodic (project config buffer) period := by
  intro count
  simp only [project, Frame.Views.at, periodic_cursorVisible hphase count]

include hperiod

theorem card_shownIn (start : Int) :
    (#(config.shownIn (Ico start (start + period))) : Int) = period / 2 + 1 := by
  simp only [shownIn, hphase, Except.ok.injEq, decide_eq_true_eq]
  rw [Frame.card_filter_window start (by omega) fun place => 2 * place ≤ period]
  exact Frame.card_firstHalf hperiod

/-- From three frames on, the first half of a period is not all of it. -/
theorem exists_hidden (hlong : 3 ≤ period) (start : Int) :
    ∃ count ∈ Ico start (start + period), config.cursorVisible count = .ok false := by
  have hfewer : #(config.shownIn (Ico start (start + period))) < #(Ico start (start + period)) := by
    have hshown := card_shownIn hperiod hphase start
    rw [Int.card_Ico]
    omega
  obtain ⟨count, hcount, hhidden⟩ := exists_mem_notMem_of_card_lt_card hfewer
  refine ⟨count, hcount, ?_⟩
  have hnot : config.cursorVisible count ≠ .ok true := fun hshown =>
    hhidden (mem_filter.mpr ⟨hcount, hshown⟩)
  rw [hphase] at hnot ⊢
  simpa using hnot

end Phase

/-- The cursor goes through a period over and over, shown up to its middle and hidden behind it. -/
structure Blinks (config : Config) (period : Int) : Prop where
  phase (count : Int) :
    config.cursorVisible count = .ok (decide (2 * (count % period) ≤ period))
  /-- The middle is the half of the period in binary arithmetic, where it is exact. -/
  middle : ∃ half, (Number.int period).div (.int 2) = .ok half ∧ half.Amounts (period / 2) ∧
    ∀ count, config.cursorVisible count = .ok true ↔ ((count % period : Int) : ℚ) ≤ period / 2
  periodic : Function.Periodic config.cursorVisible period
  frames (buffer : Text) : Function.Periodic (project config buffer) period
  /-- Any window as long as the period shows it equally often. -/
  shown (start : Int) : (#(config.shownIn (Ico start (start + period))) : Int) = period / 2 + 1
  /-- Any such window shows it twice and hides it, unless the period is too short for that. -/
  alternates (hlong : 3 ≤ period) (start : Int) :
    2 ≤ #(config.shownIn (Ico start (start + period))) ∧
      ∃ count ∈ Ico start (start + period), config.cursorVisible count = .ok false

/-- A cursor with an interval of some frames blinks.  One with an interval that is rounded to no frame is
always shown. -/
theorem cursorVisible_blinks (hglyph : config.cursorGlyph.isSet = true)
    (hblink : 0 < config.cursorBlink) (hinterval : config.blinkFrames = .ok interval) :
    (1 ≤ interval → config.Blinks interval) ∧
      (interval = 0 → ∀ count, config.cursorVisible count = .ok true) := by
  have hvisible := cursorVisible_eq hglyph hblink hinterval
  refine ⟨fun hframes => ?blinks, fun hnone count => ?steady⟩
  case blinks =>
    rw [max_eq_right hframes] at hvisible
    obtain ⟨half, hdiv, hamounts⟩ := half_blinkFrames hinterval (by omega)
    exact {
      phase := hvisible
      middle := ⟨half, hdiv, hamounts, cursorVisible_iff_le_half hvisible⟩
      periodic := periodic_cursorVisible hvisible
      frames := periodic_project hvisible
      shown := card_shownIn hframes hvisible
      alternates := fun hlong start => by
        have hshown := card_shownIn hframes hvisible start
        exact ⟨by omega, exists_hidden hframes hvisible hlong start⟩ }
  case steady =>
    -- every frame is at place zero
    rw [hvisible, hnone, max_eq_left zero_le_one, Int.emod_one]
    rfl

example : [0, 1, 2, 3, 4].map { (default : Config) with
      fps := .int 10
      cursorBlink := 400
      cursorGlyph := .string "_" }.cursorVisible
    = [.ok true, .ok true, .ok true, .ok false, .ok true] := by
  decide +kernel

/-- A cursor that blinks in so many milliseconds, at seven and a half frames per second. -/
def blinkingIn (duration : Nat) : Config :=
  { (default : Config) with
    fps := .real (.ofRatio false 15 2)
    cursorBlink := duration
    cursorGlyph := .string "_" }

/-- 3.15 frames are rounded to three, and 0.3 frames to none. -/
theorem cursorVisible_blinks_threeFrames :
    ((blinkingIn 420).cursorGlyph.isSet = true ∧ 0 < (blinkingIn 420).cursorBlink ∧
      (blinkingIn 420).blinkFrames = .ok 3 ∧ (blinkingIn 420).Blinks 3) ∧
    ((blinkingIn 40).cursorGlyph.isSet = true ∧ 0 < (blinkingIn 40).cursorBlink ∧
      (blinkingIn 40).blinkFrames = .ok 0 ∧ ∀ count, (blinkingIn 40).cursorVisible count = .ok true) := by
  have hthree : (blinkingIn 420).blinkFrames = .ok 3 := by decide +kernel
  have hnone : (blinkingIn 40).blinkFrames = .ok 0 := by decide +kernel
  have hblinks := (cursorVisible_blinks (by decide) (by decide) hthree).1 (by decide)
  have hsteady := (cursorVisible_blinks (by decide) (by decide) hnone).2 rfl
  exact ⟨⟨by decide, by decide, hthree, hblinks⟩, by decide, by decide, hnone, hsteady⟩

end Config

end Screencast
