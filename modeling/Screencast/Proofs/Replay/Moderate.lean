import Screencast.Proofs.Number.Bounds
import Screencast.Proofs.Replay.Steady

/-!
# Settings with moderate options

The options that enter into arithmetic are the frame rate, the typing speed and the interval of the
cursor.  If none of them is beyond `2 ^ 500`, then nothing that a replay computes from them is out of
range, and the setting is steady: `Setting.steady_of_moderate`.
-/

namespace Screencast

namespace Twister

theorem next_atMost (rhythm : Twister) : rhythm.next.1.AtMost (2 ^ 0) := by
  refine Binary64.ofRatio_atMost false (Nat.two_pow_pos 53) (by decide) ?_
  have hhigh : (rhythm.next32.1 >>> 5).toNat < 2 ^ 27 := by
    rw [UInt32.toNat_shiftRight]
    have hword := rhythm.next32.1.toNat_lt
    simp only [UInt32.reduceToNat, Nat.shiftRight_eq_div_pow, Nat.reduceMod, Nat.reducePow]
    omega
  have hlow : (rhythm.next32.2.next32.1 >>> 6).toNat < 2 ^ 26 := by
    rw [UInt32.toNat_shiftRight]
    have hword := rhythm.next32.2.next32.1.toNat_lt
    simp only [UInt32.reduceToNat, Nat.shiftRight_eq_div_pow, Nat.reduceMod, Nat.reducePow]
    omega
  rw [pow_zero]
  refine div_le_one_of_le₀ ?_ (by positivity)
  simp only [Nat.pow_eq]
  exact_mod_cast (by omega : (rhythm.next32.1 >>> 5).toNat * 2 ^ 26
    + (rhythm.next32.2.next32.1 >>> 6).toNat ≤ 2 ^ 53)

end Twister

namespace Config

variable {config : Config} {product : Number}

/-- A time lasts for some frames if its product with the frame rate is within the range. -/
theorem lasts_of_mul {duration : Number} (hproduct : duration.mul config.fps = .ok product)
    (hbound : product.AtMost 1024) : config.Lasts duration := by
  have hrange : product.AtMost (1015 + 9) := hbound
  obtain ⟨frames, hframes, hfinite⟩ := hrange.div_thousand (by decide)
  obtain ⟨count, hcount⟩ := hfinite.toInteger Binary64.floorFinite
  refine ⟨count, ?_⟩
  simp only [frameCount, hproduct, hframes, bind, Except.bind]
  exact hcount

/-- So does the interval of the cursor. -/
theorem blinkFrames_of_mul (hproduct : (Number.int config.cursorBlink).mul config.fps = .ok product)
    (hbound : product.AtMost 1024) : ∃ interval, config.blinkFrames = .ok interval := by
  have hrange : product.AtMost (1015 + 9) := hbound
  obtain ⟨frames, hframes, hfinite⟩ := hrange.div_thousand (by decide)
  obtain ⟨interval, hinterval⟩ := hfinite.toInteger Binary64.roundFinite
  refine ⟨interval, ?_⟩
  simp only [blinkFrames, hproduct, hframes, bind, Except.bind]
  exact hinterval

/-- A key takes at most twice the typing speed, as long as the double is within the range. -/
theorem keyDelay_atMost {speed : ℚ} {significand : Nat} {exponent : Int}
    (hspeed : Binary64.Representable speed significand exponent)
    (hroom : exponent < Binary64.greatestExponent) {least : Binary64}
    (hleast : (Number.int config.typingSpeed).toReal = .ok least) (hbound : least.AtMost speed)
    (key : Key) (rhythm : Twister) :
    ∃ delay, config.keyDelay key rhythm.next.1 = .ok delay ∧ delay.AtMost (2 * speed) := by
  have hdouble := hspeed.double hroom
  have hextra : (least.mul rhythm.next.1).AtMost speed :=
    hbound.mul_of_le rhythm.next_atMost hspeed (by rw [pow_zero, mul_one])
  have hdelay : (least.add (least.mul rhythm.next.1)).AtMost (2 * speed) :=
    hbound.add_of_le hextra hdouble (two_mul speed).ge
  have hshare : ((least.add (least.mul rhythm.next.1)).div (.ofInt deletionSpeed)).AtMost
      (2 * speed) := by
    have hthree : Binary64.ofInt deletionSpeed = .finite false 6755399441055744 (-51) := by
      decide +kernel
    have hvalue : ((6755399441055744 : Nat) : ℚ) * 2 ^ (-51 : Int) = 3 := by norm_num
    rw [hthree]
    refine hdelay.div_of_le (by decide) hdouble ?_ false
    rw [hvalue]
    exact div_le_self hdouble.nonneg (by norm_num)
  cases key with
  | typed =>
      refine ⟨_, ?_, hdelay⟩
      simp only [keyDelay, hleast, bind, Except.bind]
      rfl
  | deleted =>
      refine ⟨_, ?_, hshare⟩
      simp only [keyDelay, hleast, bind, Except.bind]
      rfl

end Config

/-- Options that are far from the ends of the range. -/
structure Config.Moderate (config : Config) : Prop where
  fps : config.fps.AtMost 500
  typingSpeed : config.typingSpeed ≤ 2 ^ 500
  cursorBlink : config.cursorBlink ≤ 2 ^ 500
  numbers : config.lineNumbers.isSet = true → config.lineNumberWidth ≤ Text.mostCharacters

namespace Config.Moderate

variable {config : Config} (h : config.Moderate)

include h

theorem lasts {duration : Number} {k : Nat} (hduration : duration.AtMost k) (hk : k ≤ 523) :
    config.Lasts duration := by
  obtain ⟨product, hproduct, hbound⟩ := hduration.mul h.fps (by omega)
  exact lasts_of_mul hproduct (hbound.mono (by omega))

theorem projects : config.Projects where
  numbers := h.numbers
  blink _ _ := by
    have hblink : (Number.int config.cursorBlink).AtMost 500 := h.cursorBlink
    obtain ⟨product, hproduct, hbound⟩ := hblink.mul h.fps (by decide)
    exact blinkFrames_of_mul hproduct (hbound.mono (by decide))

theorem keyDelay (key : Key) (rhythm : Twister) :
    ∃ delay, config.keyDelay key rhythm.next.1 = .ok delay ∧ (Number.real delay).AtMost 501 := by
  have hspeed : (Number.int config.typingSpeed).AtMost 500 := h.typingSpeed
  obtain ⟨least, hleast, hbound⟩ := hspeed.toReal (by decide)
  obtain ⟨delay, hdelay, hatMost⟩ :=
    keyDelay_atMost (Binary64.representable_two_pow (by decide)) (by decide) hleast hbound key rhythm
  rw [← pow_succ'] at hatMost
  exact ⟨delay, hdelay, hatMost⟩

end Config.Moderate

/-- Moderate options make a setting steady, if the cursor is a text, the preview works and no pause is
interrupted. -/
theorem Setting.steady_of_moderate {setting : Setting} {glyph : Text}
    (hglyph : setting.config.cursorGlyph = .string glyph) (hconfig : setting.config.Moderate)
    (hpreview : ∀ frame, setting.preview frame = none) (hpacing : setting.pacing.Uninterrupted) :
    setting.Steady where
  glyph := ⟨glyph, hglyph⟩
  projects := hconfig.projects
  preview := hpreview
  pacing := hpacing
  pauses := by
    have hpause : (Number.int Session.actionPause).AtMost 10 := by
      show Session.actionPause ≤ 2 ^ 10
      decide
    exact hconfig.lasts hpause (by decide)
  keys key rhythm := by
    obtain ⟨delay, hdelay, hbound⟩ := hconfig.keyDelay key rhythm
    exact ⟨delay, hdelay, hconfig.lasts hbound (by decide)⟩

/-- A replay with a preview that shows everything and commands that write nothing. -/
def quietSetting (config : Config) : Setting where
  config := config
  commands := fun _ _ => .started [] (.exited 0)
  pacing := .immediate
  preview := fun _ => none
  entropy := .ofSeed 0

/-- A configuration with the usual options for timing and cursor. -/
def usualConfig : Config :=
  { (default : Config) with
    fps := .int 30
    lineCount := 20
    cursorBlink := 500
    cursorGlyph := .string "█"
    lineNumberWidth := 3
    typingSpeed := 50 }

/-- Numbers of a few digits are far from the end of the range. -/
theorem le_two_pow_of_small {n : Nat} (h : n ≤ 2 ^ 11) : n ≤ 2 ^ 500 :=
  h.trans (pow_le_pow_right₀ one_le_two (by decide))

theorem usualConfig_moderate : usualConfig.Moderate := by
  have hfps : (30 : Int).natAbs ≤ 2 ^ 500 := le_two_pow_of_small (by decide)
  have hspeed : usualConfig.typingSpeed ≤ 2 ^ 500 := le_two_pow_of_small (by decide)
  have hblink : usualConfig.cursorBlink ≤ 2 ^ 500 := le_two_pow_of_small (by decide)
  exact ⟨hfps, hspeed, hblink, nofun⟩

end Screencast
