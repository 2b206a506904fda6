import Screencast.Config.Build
import Screencast.Proofs.Number.Finite
import Screencast.Proofs.Replay.Agreement

/-!
# What accepted options can record

`Config.CanRecord` says that a configuration never keeps a replay from being recorded: times come to
numbers of frames, every buffer can be shown, and nothing but the script and its commands halts a replay.

The check of the frame rate lets two values through that are no positive numbers, an infinity and the
value that is no number.  `Config.canRecord_iff` says that these are the only ones that go wrong, apart from
line numbers that do not fit into the memory, as long as no product leaves the range.
-/

namespace Screencast

namespace Config

variable {config : Config} {duration : Number}

/-! ## Numbers of frames -/

theorem frameCount_eq_ok {count : Int} (h : config.frameCount duration = .ok count) :
    ∃ product frames, duration.mul config.fps = .ok product ∧
      product.div (.int 1000) = .ok frames ∧ frames.floor = .ok count := by
  obtain ⟨product, hproduct, h⟩ := exists_of_bind_eq_ok h
  obtain ⟨frames, hframes, hfloor⟩ := exists_of_bind_eq_ok h
  exact ⟨product, frames, hproduct, hframes, hfloor⟩

theorem frameCount_nonneg {count : Int} (hduration : duration.isNegative = false)
    (hfps : config.fps.isNegative = false) (h : config.frameCount duration = .ok count) :
    0 ≤ count := by
  obtain ⟨product, frames, hproduct, hframes, hfloor⟩ := frameCount_eq_ok h
  have hsign := Number.isNegative_mul hduration hfps hproduct
  exact Binary64.floor_nonneg (Number.isNegative_div_thousand hsign hframes) hfloor

/-- With a frame rate that is not finite no time comes to a number of frames. -/
theorem isFinite_of_frameCount {count : Int} (h : config.frameCount duration = .ok count) :
    config.fps.IsFinite := by
  obtain ⟨product, frames, hproduct, hframes, hfloor⟩ := frameCount_eq_ok h
  obtain ⟨a, b, -, hb, -⟩ | ⟨x, y, -, hy, rfl⟩ := Number.mul_cases hproduct
  · rw [hb]
    trivial
  · obtain rfl : (x.mul y).div (.ofInt 1000) = frames := Except.ok.inj hframes
    have hfinite := (Binary64.isFinite_of_mul
      (Binary64.isFinite_of_div (Binary64.isFinite_of_toInteger hfloor))).2
    cases hfps : config.fps with
    | int n => trivial
    | real z =>
        rw [hfps] at hy
        obtain rfl : z = y := Except.ok.inj hy
        exact hfinite

/-! ## Options within the range -/

/-- The products that a recording computes from its options stay within the range. -/
structure WithinRange (config : Config) : Prop where
  blink : (Number.int config.cursorBlink).Fits config.fps
  pause : (Number.int Session.actionPause).Fits config.fps
  delay : (Number.int config.endDelay).Fits config.fps
  typing : (Number.int 2).Fits (.int config.typingSpeed)
  /-- Every delay that can be drawn for a key. -/
  keys : ∀ key (rhythm : Twister) delay, config.keyDelay key rhythm.next.1 = .ok delay →
    (Number.real delay).Fits config.fps

/-- A finite time that is not negative and whose product with the frame rate stays within the range. -/
structure Spans (config : Config) (duration : Number) : Prop where
  finite : duration.IsFinite
  nonnegative : duration.isNegative = false
  fits : duration.Fits config.fps

theorem fits_double {speed : Nat} (h : speed ≤ 2 ^ 500) : (Number.int 2).Fits (.int speed) := by
  have htwo : (Number.int 2).AtMost 1 := by
    show 2 ≤ 2 ^ 1
    decide
  have hspeed : (Number.int speed).AtMost 500 := h
  exact htwo.fits hspeed (by decide)

/-- Options that are far from the ends of the range are within it. -/
theorem Moderate.withinRange (h : config.Moderate) (hend : config.endDelay ≤ 2 ^ 500) :
    config.WithinRange where
  blink := by
    have hblink : (Number.int config.cursorBlink).AtMost 500 := h.cursorBlink
    exact hblink.fits h.fps (by decide)
  pause := by
    have hpause : (Number.int Session.actionPause).AtMost 10 := by
      show Session.actionPause ≤ 2 ^ 10
      decide
    exact hpause.fits h.fps (by decide)
  delay := by
    have hdelay : (Number.int config.endDelay).AtMost 500 := hend
    exact hdelay.fits h.fps (by decide)
  typing := fits_double h.typingSpeed
  keys key rhythm delay hdelay := by
    obtain ⟨drawn, hdrawn, hbound⟩ := h.keyDelay key rhythm
    obtain rfl : drawn = delay := Except.ok.inj (hdrawn.symm.trans hdelay)
    exact hbound.fits h.fps (by decide)

/-- A key takes a finite time if the double of the typing speed stays within the range. -/
theorem keyDelay_isFinite (h : (Number.int 2).Fits (.int config.typingSpeed)) (key : Key)
    (rhythm : Twister) :
    ∃ delay, config.keyDelay key rhythm.next.1 = .ok delay ∧ delay.IsFinite := by
  obtain ⟨significand, exponent, hleast, hcanonical, hroom⟩ := h.toReal_of_double
  obtain ⟨delay, hdelay, hbound⟩ := keyDelay_atMost hcanonical.representable hroom hleast
    (le_refl _) key rhythm
  exact ⟨delay, hdelay, hbound.isFinite⟩

theorem lasts_of_fits (h : duration.Fits config.fps) (hduration : duration.IsFinite)
    (hfps : config.fps.IsFinite) : config.Lasts duration := by
  obtain ⟨product, hproduct, hbound⟩ := h.mul hduration hfps
  exact lasts_of_mul hproduct hbound

theorem Spans.frames (h : config.Spans duration) (hfinite : config.fps.IsFinite)
    (hpositive : config.fps.isPositive = true) :
    ∃ count : Nat, config.frameCount duration = .ok count := by
  obtain ⟨count, hcount⟩ := lasts_of_fits h.fits h.finite hfinite
  have hnonneg :=
    frameCount_nonneg h.nonnegative (Number.isNegative_of_isPositive hpositive) hcount
  obtain ⟨n, rfl⟩ := Int.eq_ofNat_of_zero_le hnonneg
  exact ⟨n, hcount⟩

theorem WithinRange.projects (h : config.WithinRange) (hfinite : config.fps.IsFinite)
    (hnumbers : config.lineNumbers.isSet = true → config.lineNumberWidth ≤ Text.mostCharacters) :
    config.Projects where
  numbers := hnumbers
  blink _ _ := by
    obtain ⟨product, hproduct, hbound⟩ := h.blink.mul trivial hfinite
    exact blinkFrames_of_mul hproduct hbound

/-- Nothing but the script and its commands halts a replay with options within the range. -/
theorem WithinRange.steady {setting : Setting} {glyph : Text} (h : setting.config.WithinRange)
    (hglyph : setting.config.cursorGlyph = .string glyph) (hfinite : setting.config.fps.IsFinite)
    (hprojects : setting.config.Projects) (hpreview : ∀ frame, setting.preview frame = none)
    (hpacing : setting.pacing.Uninterrupted) : setting.Steady where
  glyph := ⟨glyph, hglyph⟩
  projects := hprojects
  preview := hpreview
  pacing := hpacing
  pauses := lasts_of_fits h.pause trivial hfinite
  keys key rhythm := by
    obtain ⟨delay, hdelay, hkey⟩ := keyDelay_isFinite h.typing key rhythm
    exact ⟨delay, hdelay, lasts_of_fits (h.keys key rhythm delay hdelay) hkey hfinite⟩

end Config

/-! ## Recording -/

/-- A time that passes leaves as many frames as it lasts, behind those from before. -/
theorem Stage.elapse_appends {config : Config} {glyph : Text} {pacing : Pacing} {duration : Number}
    {count : Nat} (hglyph : config.cursorGlyph = .string glyph) (hprojects : config.Projects)
    (hpacing : pacing.Uninterrupted)
    (hseconds : ∃ seconds, duration.div (.int 1000) = .ok seconds)
    (hcount : config.frameCount duration = .ok count) (stage : Stage) :
    ∃ after shots, stage.elapse config pacing duration = (after, .ok count) ∧
      after.frames.toList = stage.frames.toList ++ shots ∧ shots.length = count := by
  obtain ⟨recorded, hrecorded⟩ : ∃ recorded, stage.recordViews config
      (Frame.views config stage.session.buffer) count = (recorded, none) :=
    ⟨_, Prod.ext rfl ((recordViews_isNone_iff hglyph _ count stage).mpr fun _ => hprojects)⟩
  obtain ⟨after, hafter⟩ : ∃ after, recorded.pause pacing duration = (after, none) :=
    ⟨_, Prod.ext rfl (pause_isNone hpacing hseconds recorded)⟩
  have helapse : stage.elapse config pacing duration = (after, .ok (count : Int)) := by
    simp only [elapse, elapseViews, hcount, Int.toNat_natCast, hrecorded, hafter]
  -- the buffers of the new frames are known, and there is one frame for each of them
  obtain ⟨events, hextends, -, hall⟩ :=
    elapseViews_films config pacing duration (rfl : stage.session.buffer = _)
  have hresult : stage.elapseViews config pacing (Frame.views config stage.session.buffer) duration
      = (after, .ok (count : Int)) := helapse
  rw [hresult] at hextends hall
  obtain ⟨shots, hframes, hshots⟩ := hextends.frames
  have hlength := congrArg List.length hshots
  rw [List.length_map, projections, List.length_mapIdx, hall rfl, List.length_replicate,
    Config.ticks, hcount] at hlength
  exact ⟨after, shots, helapse, hframes, hlength⟩

namespace Config

variable {config : Config}

/-- A configuration that never keeps a replay from being recorded. -/
structure CanRecord (config : Config) : Prop where
  frames : ∀ duration, config.Spans duration →
    ∃ count : Nat, config.frameCount duration = .ok count
  cursor : ∀ count, ∃ visible, config.cursorVisible count = .ok visible
  projects : ∀ buffer count, ∃ frame, project config buffer count = .ok frame
  /-- A time that passes leaves as many frames as it lasts. -/
  elapses : ∀ pacing duration (count : Nat) (stage : Stage), pacing.Uninterrupted →
    config.Spans duration → config.frameCount duration = .ok count →
    ∃ after shots, stage.elapse config pacing duration = (after, .ok count) ∧
      after.frames.toList = stage.frames.toList ++ shots ∧ shots.length = count
  /-- So does the time for which the last frame is held. -/
  delay : ∀ stage : Stage, ∃ after count,
    stage.elapse config .immediate (.int config.endDelay) = (after, .ok count)
  /-- A replay is halted by nothing but its cues, and a failure can be shown. -/
  replays : ∀ setting : Setting, setting.config = config →
    (∀ frame, setting.preview frame = none) → setting.pacing.Uninterrupted →
    ∀ (stage : Stage) records,
      (stage.performRecords setting records).2
          = firstHalt? (cueSheet setting.commands stage.session records) ∧
        (stage.run setting records).2
          = .ofHalt (firstHalt? (cueSheet setting.commands stage.session records))

/-! ## Accepted frame rates -/

/-- What is known of the frame rate and the cursor of accepted options. -/
theorem of_build {options : List (Text × Json)} (h : build options = .ok config) :
    frameRateOf options = .ok config.fps ∧ config.cursorGlyph = valueOf options "cursor_glyph" := by
  unfold build at h
  dsimp only at h
  split at h
  · cases h
  · obtain ⟨lineCount, -, h⟩ := exists_of_bind_eq_ok h
    obtain ⟨cursorBlink, -, h⟩ := exists_of_bind_eq_ok h
    obtain ⟨lineNumberWidth, -, h⟩ := exists_of_bind_eq_ok h
    obtain ⟨typingSpeed, -, h⟩ := exists_of_bind_eq_ok h
    obtain ⟨quality, -, h⟩ := exists_of_bind_eq_ok h
    obtain ⟨repetitions, -, h⟩ := exists_of_bind_eq_ok h
    obtain ⟨endDelay, -, h⟩ := exists_of_bind_eq_ok h
    obtain ⟨width, -, h⟩ := exists_of_bind_eq_ok h
    obtain ⟨fontSize, -, h⟩ := exists_of_bind_eq_ok h
    obtain ⟨lineHeight, -, h⟩ := exists_of_bind_eq_ok h
    obtain ⟨cellWidth, -, h⟩ := exists_of_bind_eq_ok h
    obtain ⟨paddingX, -, h⟩ := exists_of_bind_eq_ok h
    obtain ⟨paddingY, -, h⟩ := exists_of_bind_eq_ok h
    obtain ⟨fps, hfps, h⟩ := exists_of_bind_eq_ok h
    split at h
    · cases h
    · obtain ⟨renderer, -, h⟩ := exists_of_bind_eq_ok h
      obtain ⟨seed, -, h⟩ := exists_of_bind_eq_ok h
      cases h
      exact ⟨hfps, rfl⟩

/-- An accepted frame rate is positive or no number. -/
theorem isPositive_or_isNan_of_build {options : List (Text × Json)} (h : build options = .ok config) :
    config.fps.isPositive = true ∨ config.fps.isNan = true := by
  have hfps := (of_build h).1
  unfold frameRateOf at hfps
  cases hnumber : (valueOf options "fps").number? with
  | none =>
      simp only [hnumber] at hfps
      cases hfps
  | some fps =>
      simp only [hnumber] at hfps
      split at hfps
      · next haccepted =>
        obtain rfl : fps = config.fps := Except.ok.inj hfps
        simpa using haccepted
      · cases hfps

theorem isPositive_of_build {options : List (Text × Json)} (h : build options = .ok config)
    (hfinite : config.fps.IsFinite) : config.fps.isPositive = true := by
  refine (isPositive_or_isNan_of_build h).resolve_right fun hnan => ?_
  cases hfps : config.fps with
  | int n =>
      rw [hfps] at hnan
      cases hnan
  | real x =>
      rw [hfps] at hnan hfinite
      cases x with
      | nan => exact hfinite
      | finite s m e | infinite s => cases hnan

/-! ## The usual options -/

theorem unknownNames_of_known {options : List (Text × Json)}
    (h : ∀ option ∈ options, (Json.find? option.1 defaults).isNone = false) :
    unknownNames options = [] := by
  have hnone : (options.map Prod.fst).filter (fun name => (Json.find? name defaults).isNone) = [] := by
    rw [List.filter_eq_nil_iff]
    intro name hname
    obtain ⟨option, hoption, rfl⟩ := List.mem_map.mp hname
    rw [h option hoption]
    exact Bool.false_ne_true
  rw [unknownNames, hnone, List.mergeSort_nil]

/-- The configuration with a frame rate and the defaults of all other options. -/
theorem build_frameRate (fps : Number) (h : (fps.isPositive || fps.isNan) = true) :
    ∃ config, build [("fps", .ofNumber fps)] = .ok config ∧ config.fps = fps ∧
      config.cursorBlink = 500 ∧ config.typingSpeed = 50 ∧ config.endDelay = 2000 ∧
      config.lineNumbers = .bool false := by
  have hknown : unknownNames [("fps", .ofNumber fps)] = [] :=
    unknownNames_of_known fun option hoption => by
      rw [List.mem_singleton.mp hoption]
      rfl
  have hfps : frameRateOf [("fps", .ofNumber fps)] = .ok fps := by
    have hvalue : (valueOf [("fps", .ofNumber fps)] "fps").number? = some fps := by
      cases fps <;> rfl
    simp only [frameRateOf, hvalue, h, if_true]
  simp only [build, hknown, hfps]
  exact ⟨_, rfl, rfl, rfl, rfl, rfl, rfl⟩

/-! ## What they can record -/

/-- Accepted options can record exactly if the frame rate is finite and line numbers fit into the memory;
with a frame rate that is not finite, no time at all comes to a number of frames. -/
theorem canRecord_iff {options : List (Text × Json)} {glyph : Text}
    (hbuild : build options = .ok config)
    (hglyph : valueOf options "cursor_glyph" = .string glyph) (hrange : config.WithinRange) :
    (config.CanRecord ↔ config.fps.IsFinite ∧
      (config.lineNumbers.isSet = true → config.lineNumberWidth ≤ Text.mostCharacters)) ∧
    (¬config.fps.IsFinite → ∀ duration count, config.frameCount duration ≠ .ok count) := by
  have hstring : config.cursorGlyph = .string glyph := (of_build hbuild).2.trans hglyph
  have hend : config.Spans (.int config.endDelay) :=
    ⟨trivial, Number.isNegative_natCast _, hrange.delay⟩
  refine ⟨⟨fun hrecords => ?_, fun ⟨hfinite, hnumbers⟩ => ?_⟩,
    fun hfinite duration count hcount => hfinite (isFinite_of_frameCount hcount)⟩
  · obtain ⟨count, hcount⟩ := hrecords.frames _ hend
    exact ⟨isFinite_of_frameCount hcount,
      ((project_isOk_iff hstring [] 0).mp (hrecords.projects [] 0)).numbers⟩
  · have hpositive := isPositive_of_build hbuild hfinite
    have hprojects := hrange.projects hfinite hnumbers
    have hframes {duration : Number} (hspans : config.Spans duration) :=
      hspans.frames hfinite hpositive
    have helapses (pacing : Pacing) {duration : Number} {count : Nat}
        (hpacing : pacing.Uninterrupted) (hspans : config.Spans duration)
        (hcount : config.frameCount duration = .ok count) (stage : Stage) :=
      stage.elapse_appends hstring hprojects hpacing
        (hspans.fits.seconds hspans.finite hfinite hpositive) hcount
    exact {
      frames := fun duration hspans => hframes hspans
      cursor := (cursorVisible_isOk_iff · |>.mpr hprojects.blink)
      projects := fun buffer count => (project_isOk_iff hstring buffer count).mpr hprojects
      elapses := fun pacing duration count stage hpacing hspans hcount =>
        helapses pacing hpacing hspans hcount stage
      delay := fun stage => by
        obtain ⟨count, hcount⟩ := hframes hend
        obtain ⟨after, -, helapse, -⟩ := helapses .immediate trivial hend hcount stage
        exact ⟨after, count, helapse⟩
      replays := by
        rintro setting rfl hpreview hpacing stage records
        have hsteady := hrange.steady hstring hfinite hprojects hpreview hpacing
        refine ⟨?_, (hsteady.run records stage).1⟩
        obtain ⟨ended, -, hall⟩ :=
          hsteady.performAll (cueSheet_paced setting.commands stage.session records) stage
        rw [Stage.performRecords_eq_performAll, hall] }

/-- The usual options can record. -/
theorem canRecord_usual :
    ∃ config, build [("fps", .ofNumber (.int 30))] = .ok config ∧ config.CanRecord := by
  obtain ⟨config, hbuild, hfps, hblink, htyping, hdelay, hnumbers⟩ := build_frameRate (.int 30) rfl
  have hmoderate : config.Moderate := by
    constructor
    case fps =>
      have hthirty : (30 : Int).natAbs ≤ 2 ^ 500 := le_two_pow_of_small (by decide)
      rw [hfps]
      exact hthirty
    case typingSpeed =>
      rw [htyping]
      exact le_two_pow_of_small (by decide)
    case cursorBlink =>
      rw [hblink]
      exact le_two_pow_of_small (by decide)
    case numbers =>
      rw [hnumbers]
      exact nofun
  have hwithin := hmoderate.withinRange (hdelay ▸ le_two_pow_of_small (by decide))
  exact ⟨config, hbuild, (canRecord_iff hbuild rfl hwithin).1.mpr ⟨hfps ▸ trivial, hmoderate.numbers⟩⟩

/-- A frame rate that is accepted, and no product of finite numbers leaves the range with it, but no time
comes to a number of frames, not even none at all. -/
def Misleads (rate : Binary64) : Prop :=
  ∃ config, build [("fps", .real rate)] = .ok config ∧
    valueOf [("fps", .real rate)] "cursor_glyph" = .string "█" ∧
    config.WithinRange ∧ config.Spans (.int 0) ∧
    (∀ count, config.frameCount (.int 0) ≠ .ok count) ∧ ¬config.CanRecord

theorem misleads_of_accepted {rate : Binary64} (haccepted : (rate.isPositive || rate.isNan) = true)
    (hunbounded : ¬rate.IsFinite) : Misleads rate := by
  obtain ⟨config, hbuild, hfps, -, htyping, -⟩ := build_frameRate (.real rate) haccepted
  have hinfinite : ¬config.fps.IsFinite := by rwa [hfps]
  have hfits (quantity : Number) : quantity.Fits config.fps :=
    fun _ hfinite => absurd hfinite hinfinite
  have hwithin : config.WithinRange := {
    blink := hfits _
    pause := hfits _
    delay := hfits _
    typing := fits_double (htyping ▸ le_two_pow_of_small (by decide))
    keys := fun _ _ _ _ => hfits _ }
  have hspans : config.Spans (.int 0) := ⟨trivial, rfl, hfits _⟩
  have hnone (count : Int) : config.frameCount (.int 0) ≠ .ok count := fun hcount =>
    hinfinite (isFinite_of_frameCount hcount)
  refine ⟨config, hbuild, rfl, hwithin, hspans, hnone, fun hrecords => ?_⟩
  obtain ⟨count, hcount⟩ := hrecords.frames (.int 0) hspans
  exact hnone count hcount

/-- The two frame rates that are accepted without being positive numbers. -/
theorem misleads_unbounded : Misleads .nan ∧ Misleads (.infinite false) :=
  ⟨misleads_of_accepted rfl id, misleads_of_accepted rfl id⟩

end Config

end Screencast
