import Screencast.Proofs.Number.RoundingError
import Screencast.Proofs.Replay.Editing
import Screencast.Proofs.Replay.Waiting

/-!
# Typing on the recording

Each key is recorded for the time that is drawn for it: so many frames of the buffer as the key left it,
then those of the next key, and nothing else.  How many frames that are is computed with binary numbers,
and rounded down.  `Config.exists_keyTime` says how far the computed number can be from the exact one, so
that it is rounded down to the same number of frames unless a whole number is as near (`Clearcut`).
`keys_recorded` puts both together.
-/

namespace Screencast

open Binary64

/-! ## The frames of a key -/

/-- How many times faster than typing a key is. -/
def Key.speedup : Key → Nat
  | .typed => 1
  | .deleted => Config.deletionSpeed

/-- The exact number of frames in the time of a key, for the milliseconds that are drawn for it. -/
def Key.frames (key : Key) (fps draw : ℚ) : ℚ := draw * fps / (1000 * key.speedup)

theorem Key.frames_mono (key : Key) {fps draw more : ℚ} (hfps : 0 ≤ fps) (h : draw ≤ more) :
    key.frames fps draw ≤ key.frames fps more :=
  div_le_div_of_nonneg_right (mul_le_mul_of_nonneg_right h hfps) (by positivity)

/-- A computed number that rounding down turns into the same integer as the exact one: it is exact, or no
whole number is near. -/
def Clearcut (exact computed : ℚ) : Prop :=
  computed = exact ∨ ∀ n : ℕ, (1 + exact) / 2 ^ 50 < |n - exact|

theorem Clearcut.floor_eq {exact computed : ℚ} (h : Clearcut exact computed) (hexact : 0 ≤ exact)
    (hnear : |computed - exact| ≤ (1 + exact) / 2 ^ 50) : ⌊computed⌋₊ = ⌊exact⌋₊ := by
  rcases h with rfl | hfar
  · rfl
  · have hbelow : (⌊exact⌋₊ : ℚ) ≤ exact := Nat.floor_le hexact
    have habove : exact < ⌊exact⌋₊ + 1 := Nat.lt_floor_add_one exact
    have hlow := hfar ⌊exact⌋₊
    have hhigh := hfar (⌊exact⌋₊ + 1)
    rw [abs_of_nonpos (sub_nonpos.mpr hbelow)] at hlow
    push_cast at hhigh
    rw [abs_of_pos (sub_pos.mpr habove)] at hhigh
    obtain ⟨hleast, hmost⟩ := abs_le.mp hnear
    have hnonneg : 0 ≤ computed := by linarith [Nat.cast_nonneg (α := ℚ) ⌊exact⌋₊]
    rw [Nat.floor_eq_iff hnonneg]
    constructor <;> linarith

/-- What the time of a key comes to: the milliseconds that are drawn, and the number of frames that is
computed from them. -/
structure Config.KeyTime (config : Config) (key : Key) (chance : Binary64) (fps draw share : ℚ) :
    Prop where
  drawn : ∃ delay, config.keyDelay .typed chance = .ok delay ∧ delay.Amounts draw
  computed : ∃ delay product quotient, config.keyDelay key chance = .ok delay ∧
    (Number.real delay).mul config.fps = .ok product ∧ product.div (.int 1000) = .ok quotient ∧
    quotient.Amounts share
  /-- As many frames are recorded as there are whole ones. -/
  ticks : config.keyTicks key chance = ⌊share⌋₊
  near : |share - key.frames fps draw| ≤ (1 + key.frames fps draw) / 2 ^ 50
  /-- Between the typing speed and its double is drawn. -/
  range : config.typingSpeed < 2 ^ 53 → config.typingSpeed ≤ draw ∧ draw ≤ 2 * config.typingSpeed

theorem Config.KeyTime.frames_nonneg {config : Config} {key : Key} {chance : Binary64}
    {fps draw share : ℚ} (h : config.KeyTime key chance fps draw share) (hfps : 0 ≤ fps) :
    0 ≤ key.frames fps draw := by
  obtain ⟨delay, -, hdraw⟩ := h.drawn
  exact div_nonneg (mul_nonneg hdraw.nonneg hfps) (by positivity)

/-! ## What is drawn -/

theorem Twister.exists_chance (rhythm : Twister) :
    ∃ chance, rhythm.next.1.Amounts chance ∧ chance ≤ 1 := by
  have hbound := rhythm.next_atMost
  have hrounds : ∃ value, RoundsTo value rhythm.next.1 := ⟨_, _, _, Nat.two_pow_pos 53, rfl, rfl⟩
  obtain ⟨value, hvalue⟩ := hrounds
  obtain ⟨chance, hchance⟩ := hvalue.exists_amounts hbound.isFinite
  refine ⟨chance, hchance, ?_⟩
  obtain ⟨m, e, hfinite, rfl⟩ := hchance
  rw [hfinite, pow_zero] at hbound
  exact hbound

namespace Config

variable {config : Config}

theorem keyDelay_typed {chance delay : Binary64} (h : config.keyDelay .typed chance = .ok delay) :
    delay = (Binary64.ofInt config.typingSpeed).add
      ((Binary64.ofInt config.typingSpeed).mul chance) := by
  obtain ⟨least, hleast, hdelay⟩ := exists_of_bind_eq_ok h
  rw [← Number.ofInt_of_toReal hleast] at hdelay
  exact (Except.ok.inj hdelay).symm

/-- For deleting, the time of the key is divided. -/
theorem exists_keyDelay_typed {chance delay : Binary64}
    (h : config.keyDelay .deleted chance = .ok delay) :
    ∃ typed, config.keyDelay .typed chance = .ok typed ∧
      delay = typed.div (.ofInt deletionSpeed) := by
  obtain ⟨least, hleast, hdelay⟩ := exists_of_bind_eq_ok h
  refine ⟨least.add (least.mul chance), ?_, (Except.ok.inj hdelay).symm⟩
  simp only [keyDelay, hleast]
  rfl

/-- What is drawn is nothing or a millisecond at least, and between the typing speed and its double if
that is exact. -/
theorem exists_draw {rhythm : Twister} {delay : Binary64}
    (h : config.keyDelay .typed rhythm.next.1 = .ok delay) (hfinite : delay.IsFinite) :
    ∃ draw, delay.Amounts draw ∧ (draw = 0 ∨ 1 ≤ draw) ∧
      (config.typingSpeed < 2 ^ 53 →
        config.typingSpeed ≤ draw ∧ draw ≤ 2 * config.typingSpeed) := by
  obtain rfl := keyDelay_typed h
  obtain ⟨chance, hchance, hone⟩ := rhythm.exists_chance
  obtain ⟨hleastFinite, hextraFinite⟩ := isFinite_of_add hfinite
  have hspeed := ofInt_roundsTo config.typingSpeed
  obtain ⟨least, hleast⟩ := hspeed.exists_amounts hleastFinite
  have hproduct := hleast.mul hchance
  obtain ⟨extra, hextra⟩ := hproduct.exists_amounts hextraFinite
  have hsum := hleast.add hextra
  obtain ⟨draw, hdraw⟩ := hsum.exists_amounts hfinite
  refine ⟨draw, hdraw, ?_, fun hbits => ?_⟩
  · rcases Nat.eq_zero_or_pos config.typingSpeed with hzero | hpositive
    · have hnone : Representable ((0 : Nat) : ℚ) 0 0 := representable_natCast (Nat.two_pow_pos _)
      rw [hzero] at hspeed hleast
      obtain rfl := hleast.unique (hspeed.amounts hnone)
      rw [Nat.cast_zero] at hnone
      have hextraZero : extra ≤ 0 := hproduct.le hextra hnone (by simp)
      have hdrawZero : draw ≤ 0 := hsum.le hdraw hnone (by simpa using hextraZero)
      exact .inl (le_antisymm hdrawZero hdraw.nonneg)
    · have hunit : Representable ((1 : Nat) : ℚ) 1 0 := representable_natCast (by decide)
      have hleastOne : ((1 : Nat) : ℚ) ≤ least := hspeed.ge hleast hunit (by exact_mod_cast hpositive)
      have hdrawOne : ((1 : Nat) : ℚ) ≤ draw :=
        hsum.ge hdraw hunit (hleastOne.trans (le_add_of_nonneg_right hextra.nonneg))
      exact .inr (by rwa [Nat.cast_one] at hdrawOne)
  · have hexact : Representable (config.typingSpeed : ℚ) config.typingSpeed 0 :=
      representable_natCast hbits
    obtain rfl := hleast.unique (hspeed.amounts hexact)
    have hdouble := hexact.double (by decide)
    have hextraLe : extra ≤ config.typingSpeed :=
      hproduct.le hextra hexact (mul_le_of_le_one_right (Nat.cast_nonneg _) hone)
    refine ⟨hsum.ge hdraw hexact (le_add_of_nonneg_right hextra.nonneg), hsum.le hdraw hdouble ?_⟩
    linarith

end Config

/-! ## How far the computed number of frames can be from the exact one -/

/-- A positive quantity is a binary number with a small relative error. -/
theorem Number.exists_amounts {quantity : Number} {value : ℚ} {x : Binary64}
    (hvalue : quantity.value? = some value) (hpositive : 0 < value) (hx : quantity.toReal = .ok x)
    (hfinite : x.IsFinite) : ∃ r, x.Amounts r ∧ |r - value| ≤ value * roundoff := by
  match quantity with
  | .int n =>
      obtain rfl := Option.some.inj hvalue
      obtain ⟨k, rfl⟩ := Int.eq_ofNat_of_zero_le (Int.cast_nonneg_iff.mp hpositive.le)
      obtain rfl := Number.ofInt_of_toReal hx
      have hrounds := ofInt_roundsTo k
      obtain ⟨r, hr⟩ := hrounds.exists_amounts hfinite
      refine ⟨r, hr, ?_⟩
      rw [Int.cast_natCast] at hpositive ⊢
      have hone : (1 : ℚ) ≤ k := by exact_mod_cast hpositive
      exact hrounds.near_of_quarter hr (.inr (by linarith))
  | .real (.finite true m e) =>
      obtain rfl := Option.some.inj hvalue
      have hnonneg : (0 : ℚ) ≤ m * 2 ^ e := by positivity
      simp only [if_true] at hpositive
      linarith
  | .real (.finite false m e) =>
      obtain rfl := Option.some.inj hvalue
      obtain rfl := Except.ok.inj hx
      have herror : (0 : ℚ) ≤ m * 2 ^ e * roundoff := mul_nonneg hpositive.le roundoff_nonneg
      exact ⟨_, ⟨m, e, rfl, rfl⟩, by simpa using herror⟩

/-- Two small relative errors, and those of a product and of the division by a thousand. -/
theorem share_near {exact delay fps rate product share : ℚ} (hexact : 0 ≤ exact) (hfps : 0 ≤ fps)
    (hdelay : |delay - exact| ≤ exact * roundoff) (hrate : |rate - fps| ≤ fps * roundoff)
    (hproduct : |product - delay * rate| ≤ max (delay * rate * roundoff) underflow)
    (hshare : |share - product / 1000| ≤ max (product / 1000 * roundoff) underflow)
    (hdelayNonneg : 0 ≤ delay) (hrateNonneg : 0 ≤ rate) (hproductNonneg : 0 ≤ product) :
    |share - exact * fps / 1000| ≤ (1 + exact * fps / 1000) / 2 ^ 50 := by
  have hunit : roundoff = 1 / 2 ^ 53 := rfl
  have hunder : underflow ≤ 1 / 2 ^ 60 := by
    rw [one_div, ← zpow_natCast, ← zpow_neg]
    exact zpow_le_zpow_right₀ one_le_two (by decide)
  have hunderNonneg : 0 ≤ underflow := (two_zpow_pos _).le
  have hunitNonneg := roundoff_nonneg
  have hrateLe : rate ≤ fps * (1 + roundoff) := by linarith [(abs_le.mp hrate).2]
  -- the factors are off by one rounding each
  have hfactors : |delay * rate - exact * fps| ≤ exact * fps * (3 * roundoff) := by
    have hsplit : delay * rate - exact * fps = (delay - exact) * rate + exact * (rate - fps) := by ring
    calc |delay * rate - exact * fps|
        ≤ |delay - exact| * rate + exact * |rate - fps| := by
          rw [hsplit]
          refine (abs_add_le _ _).trans ?_
          rw [abs_mul, abs_mul, abs_of_nonneg hrateNonneg, abs_of_nonneg hexact]
      _ ≤ exact * roundoff * (fps * (1 + roundoff)) + exact * (fps * roundoff) :=
          add_le_add (mul_le_mul hdelay hrateLe hrateNonneg (by positivity))
            (mul_le_mul_of_nonneg_left hrate hexact)
      _ = exact * fps * (2 * roundoff + roundoff * roundoff) := by ring
      _ ≤ exact * fps * (3 * roundoff) := by
          refine mul_le_mul_of_nonneg_left ?_ (mul_nonneg hexact hfps)
          rw [hunit]
          norm_num
  have hproduct' := hproduct.trans
    (max_le_add_of_nonneg (by positivity : 0 ≤ delay * rate * roundoff) hunderNonneg)
  have hshare' := hshare.trans
    (max_le_add_of_nonneg (by positivity : 0 ≤ product / 1000 * roundoff) hunderNonneg)
  have hzero : 0 ≤ exact * fps := mul_nonneg hexact hfps
  rw [hunit] at hfactors hproduct' hshare'
  rw [abs_le] at hfactors hproduct' hshare' ⊢
  constructor <;> linarith

namespace Config

variable {config : Config}

/-- The time of a key is, but for one rounding, what was drawn for it, or its third. -/
theorem exists_delay {key : Key} {rhythm : Twister} {delay : Binary64}
    (h : config.keyDelay key rhythm.next.1 = .ok delay) (hfinite : delay.IsFinite) :
    ∃ typed draw time, config.keyDelay .typed rhythm.next.1 = .ok typed ∧ typed.Amounts draw ∧
      (config.typingSpeed < 2 ^ 53 →
        config.typingSpeed ≤ draw ∧ draw ≤ 2 * config.typingSpeed) ∧
      delay.Amounts time ∧ |time - draw / key.speedup| ≤ draw / key.speedup * roundoff := by
  cases key with
  | typed =>
      obtain ⟨draw, hdraw, -, hrange⟩ := exists_draw h hfinite
      have hone : ((Key.typed.speedup : Nat) : ℚ) = 1 := Nat.cast_one
      refine ⟨delay, draw, draw, h, hdraw, hrange, hdraw, ?_⟩
      rw [hone, div_one, sub_self, abs_zero]
      exact mul_nonneg hdraw.nonneg roundoff_nonneg
  | deleted =>
      obtain ⟨typed, htyped, rfl⟩ := exists_keyDelay_typed h
      obtain ⟨draw, hdraw, hsize, hrange⟩ := exists_draw htyped (isFinite_of_div hfinite)
      have hthree : (Binary64.ofInt deletionSpeed).Amounts (Key.deleted.speedup : Nat) :=
        ofInt_amounts (by decide)
      have hrounds := hdraw.div hthree (by norm_num [Key.speedup, deletionSpeed])
      obtain ⟨time, htime⟩ := hrounds.exists_amounts hfinite
      refine ⟨typed, draw, time, htyped, hdraw, hrange, htime, ?_⟩
      refine hrounds.near_of_quarter htime ?_
      rcases hsize with rfl | hone
      · exact .inl (zero_div _)
      · refine .inr ?_
        norm_num [Key.speedup, deletionSpeed]
        linarith

/-- Every key has its time, if the frame rate is positive. -/
theorem exists_keyTime {fps : ℚ} (hkeys : config.TimesKeys) (hfps : config.fps.value? = some fps)
    (hpositive : 0 < fps) (key : Key) (rhythm : Twister) :
    ∃ draw share, config.KeyTime key rhythm.next.1 fps draw share := by
  obtain ⟨delay, hdelay, count, hcount⟩ := hkeys key rhythm
  obtain ⟨product, hproduct, hquotient⟩ := exists_of_bind_eq_ok hcount
  obtain ⟨quotient, hquotient, hfloor⟩ := exists_of_bind_eq_ok hquotient
  obtain ⟨_, _, hreal, -, -⟩ | ⟨x, rate, hx, hrate, rfl⟩ := Number.mul_cases hproduct
  · cases hreal
  obtain rfl : delay = x := Except.ok.inj hx
  have hthousand : (Number.real (delay.mul rate)).div (.int 1000)
      = .ok ((delay.mul rate).div (.ofInt 1000)) := rfl
  obtain rfl : (delay.mul rate).div (.ofInt 1000) = quotient :=
    Except.ok.inj (hthousand.symm.trans hquotient)
  -- a number of frames is finite only if everything before it is
  have hshareFinite := isFinite_of_toInteger hfloor
  have hproductFinite := isFinite_of_div hshareFinite
  obtain ⟨hdelayFinite, hrateFinite⟩ := isFinite_of_mul hproductFinite
  obtain ⟨typed, draw, time, htyped, hdraw, hrange, htime, htimeNear⟩ :=
    exists_delay hdelay hdelayFinite
  obtain ⟨r, hr, hrateNear⟩ := Number.exists_amounts hfps hpositive hrate hrateFinite
  have hproductRounds := htime.mul hr
  obtain ⟨p, hp⟩ := hproductRounds.exists_amounts hproductFinite
  have hunit : (Binary64.ofInt 1000).Amounts (1000 : Nat) := ofInt_amounts (by decide)
  have hshareRounds := hp.div hunit (by norm_num)
  obtain ⟨share, hshare⟩ := hshareRounds.exists_amounts hshareFinite
  refine ⟨draw, share, ⟨typed, htyped, hdraw⟩,
    ⟨delay, _, _, hdelay, hproduct, hthousand, hshare⟩, ?ticks, ?near, hrange⟩
  case ticks =>
    have hcounted : count = (⌊share⌋₊ : Int) := Except.ok.inj (hfloor.symm.trans hshare.floor)
    simp only [keyTicks, hdelay, ticks, hcount, hcounted, Int.toNat_natCast]
  case near =>
    have hframes : key.frames fps draw = draw / key.speedup * fps / 1000 := by
      rw [Key.frames]
      ring
    have hexact : 0 ≤ draw / key.speedup := div_nonneg hdraw.nonneg (Nat.cast_nonneg _)
    rw [hframes]
    exact share_near hexact hpositive.le htimeNear hrateNear (hproductRounds.near hp)
      (by simpa using hshareRounds.near hshare) htime.nonneg hr.nonneg hp.nonneg

end Config

/-! ## The keys of an edit -/

namespace Session

variable (session : Session)

/-- Typing shows the text code point by code point. -/
theorem typing_eq_map (text : Text) :
    session.typing text
      = (List.range text.length).map fun i => .key .typed (session.type (text.take (i + 1))) := by
  induction text generalizing session with
  | nil => rfl
  | cons c rest ih =>
      rw [typing, ih, List.length_cons, List.range_succ_eq_map, List.map_cons, List.map_map]
      refine congrArg _ (List.map_congr_left fun i _ => ?_)
      simp only [Function.comp, Nat.succ_eq_add_one, List.take_succ_cons, type_type,
        List.singleton_append]

/-- Deleting shows the buffer getting shorter. -/
theorem deleting_eq_map {count : Nat} (h : count ≤ session.buffer.length) :
    session.deleting count
      = (List.range count).map fun i => .key .deleted (session.erase (i + 1)) := by
  induction count generalizing session with
  | zero => rfl
  | succ count ih =>
      have hone : session.delete 1 = session.erase 1 := session.delete_natCast 1
      have hlength : (session.erase 1).buffer.length = session.buffer.length - 1 :=
        List.length_take_of_le (Nat.sub_le _ _)
      have hsome : ¬session.deletable 1 = 0 := by
        rw [deletable]
        omega
      have hnext : session.deleting (count + 1)
          = .key .deleted (session.erase 1) :: (session.erase 1).deleting count := by
        rw [deleting, if_neg hsome, hone]
      rw [hnext, ih _ (by omega), List.range_succ_eq_map, List.map_cons, List.map_map]
      refine congrArg _ (List.map_congr_left fun i _ => ?_)
      simp only [Function.comp, erase_erase, Nat.succ_eq_add_one, Nat.add_comm 1]

end Session

/-- The film of keys: each of them for its own time. -/
theorem film_keys (config : Config) (key : Key) (n : Nat) (sessions : Nat → Session)
    (rhythm : Twister) :
    film config rhythm ((List.range n).map fun i => .key key (sessions i))
      = (List.range n).flatMap fun i =>
          List.replicate (config.keyTicks key (rhythm.skip i).next.1) (sessions i).buffer := by
  induction n generalizing sessions rhythm with
  | zero => rfl
  | succ n ih =>
      rw [List.range_succ_eq_map, List.map_cons, List.map_map, film, List.flatMap_cons,
        List.flatMap_map]
      exact congrArg _ (ih (fun i => sessions (i + 1)) rhythm.next.2)

/-! ## What keys add to a recording -/

/-- The frames of so many keys, with the milliseconds that are drawn for each of them and the number of
frames that is computed from them. -/
structure Stage.Pressed (config : Config) (key : Key) (fps : ℚ) (count : Nat) (shown : Nat → Text)
    (draws shares : Nat → ℚ) (before after : Stage) : Prop where
  times : ∀ i < count, config.KeyTime key (before.rhythm.skip i).next.1 fps (draws i) (shares i)
  /-- For each key its buffer is recorded, as many times as there are whole frames, and nothing else. -/
  frames : Adds config before
    ((List.range count).flatMap fun i => List.replicate ⌊shares i⌋₊ (shown i)) after
  /-- Those are the frames by exact arithmetic, where rounding does not matter. -/
  exact : (∀ i < count, Clearcut (key.frames fps (draws i)) (shares i)) →
    Adds config before
      ((List.range count).flatMap fun i =>
        List.replicate ⌊key.frames fps (draws i)⌋₊ (shown i)) after
  total : (∀ i < count, Clearcut (key.frames fps (draws i)) (shares i)) →
    (∀ i < count, config.typingSpeed ≤ draws i ∧ draws i ≤ 2 * config.typingSpeed) →
    before.frames.size + count * ⌊key.frames fps config.typingSpeed⌋₊ ≤ after.frames.size ∧
      after.frames.size
        ≤ before.frames.size + count * ⌊key.frames fps (2 * config.typingSpeed)⌋₊

/-- How long a list is that repeats each item a number of times between two bounds. -/
theorem length_flatMap_replicate {α : Type} {low high : Nat} {counts : Nat → Nat} (n : Nat)
    (shown : Nat → α) (h : ∀ i < n, low ≤ counts i ∧ counts i ≤ high) :
    n * low ≤ ((List.range n).flatMap fun i => List.replicate (counts i) (shown i)).length ∧
      ((List.range n).flatMap fun i => List.replicate (counts i) (shown i)).length ≤ n * high := by
  induction n with
  | zero => simp
  | succ n ih =>
      obtain ⟨hlow, hhigh⟩ := ih fun i hi => h i (Nat.lt_succ_of_lt hi)
      obtain ⟨hleast, hmost⟩ := h n (Nat.lt_succ_self n)
      rw [List.range_succ, List.flatMap_append, List.length_append, List.flatMap_singleton,
        List.length_replicate, Nat.succ_mul, Nat.succ_mul]
      omega

namespace Stage

variable {setting : Setting} {fps : ℚ}

/-- Keys that are performed add their frames. -/
theorem exists_pressed (hkeys : setting.config.TimesKeys)
    (hfps : setting.config.fps.value? = some fps) (hpositive : 0 < fps) (key : Key) (count : Nat)
    (sessions : Nat → Session) {before after : Stage}
    (hperformed : before.performAll setting
      ((List.range count).map fun i => .key key (sessions i)) = (after, none)) :
    ∃ draws shares, Pressed setting.config key fps count (fun i => (sessions i).buffer) draws shares
      before after := by
  choose draws shares htimes using fun i =>
    setting.config.exists_keyTime hkeys hfps hpositive key (before.rhythm.skip i)
  obtain ⟨events, hextends, -, hrecorded⟩ := performAll_films setting
    ((List.range count).map fun i => Cue.key key (sessions i)) before
  rw [hperformed] at hextends hrecorded
  have hframes : Adds setting.config before ((List.range count).flatMap fun i =>
      List.replicate ⌊shares i⌋₊ (sessions i).buffer) after := by
    have hadds : Adds setting.config before (recordedBuffers events) after := hextends.frames
    rw [hrecorded rfl, film_keys] at hadds
    simpa only [(htimes _).ticks] using hadds
  have hexact (hclear : ∀ i < count, Clearcut (key.frames fps (draws i)) (shares i)) :
      Adds setting.config before ((List.range count).flatMap fun i =>
        List.replicate ⌊key.frames fps (draws i)⌋₊ (sessions i).buffer) after := by
    have hfloor (i : Nat) (hi : i ∈ List.range count) :
        List.replicate ⌊shares i⌋₊ (sessions i).buffer
          = List.replicate ⌊key.frames fps (draws i)⌋₊ (sessions i).buffer := by
      rw [(hclear i (List.mem_range.mp hi)).floor_eq ((htimes i).frames_nonneg hpositive.le)
        (htimes i).near]
    rwa [List.flatMap_congr hfloor] at hframes
  refine ⟨draws, shares, fun i _ => htimes i, hframes, hexact, fun hclear hrange => ?_⟩
  have hcounts := length_flatMap_replicate count (fun i => (sessions i).buffer) fun i hi =>
    ⟨Nat.floor_mono (key.frames_mono hpositive.le (hrange i hi).1),
      Nat.floor_mono (key.frames_mono hpositive.le (hrange i hi).2)⟩
  rw [(hexact hclear).size_frames]
  exact ⟨Nat.add_le_add_left hcounts.1 _, Nat.add_le_add_left hcounts.2 _⟩

end Stage

/-- What typing and deleting add to a recording. -/
structure Keystrokes (setting : Setting) (fps : ℚ) (stage : Stage) : Prop where
  /-- With each key there is one more code point of the text behind what was there. -/
  typing : ∀ text, ∃ after draws shares,
    stage.execute setting (.typeText text) = (after, none) ∧
      Stage.Pressed setting.config .typed fps text.length
        (fun i => stage.session.buffer ++ text.take (i + 1)) draws shares stage after
  /-- With each key there is one code point less. -/
  deleting : ∀ count ≤ stage.session.buffer.length, ∃ after draws shares,
    stage.deleteValue setting (.int count) = (after, none) ∧
      Stage.Pressed setting.config .deleted fps count
        (fun i => stage.session.buffer.take (stage.session.buffer.length - (i + 1))) draws shares
        stage after

/-- Typing and deleting are recorded key by key, where nothing can halt a key. -/
theorem keys_recorded {setting : Setting} {fps : ℚ} (h : setting.Clear)
    (hkeys : setting.config.TimesKeys) (hfps : setting.config.fps.value? = some fps)
    (hpositive : 0 < fps) (stage : Stage) : Keystrokes setting fps stage where
  typing text := by
    have hreturns := ((keywise setting stage).returns h hkeys stage).1 text
    obtain ⟨after, hafter⟩ : ∃ after, stage.execute setting (.typeText text) = (after, none) :=
      ⟨_, Prod.ext rfl hreturns⟩
    have hperformed : stage.performAll setting ((List.range text.length).map fun i =>
        .key .typed (stage.session.type (text.take (i + 1)))) = (after, none) := by
      rw [← Session.typing_eq_map]
      exact hafter
    obtain ⟨draws, shares, htyped⟩ :=
      Stage.exists_pressed hkeys hfps hpositive .typed _ _ hperformed
    exact ⟨after, draws, shares, hafter, htyped⟩
  deleting count hcount := by
    have hreturns := ((keywise setting stage).returns h hkeys stage).2 count
    obtain ⟨after, hafter⟩ : ∃ after, stage.deleteValue setting (.int count) = (after, none) :=
      ⟨_, Prod.ext rfl hreturns⟩
    have hperformed : stage.performAll setting ((List.range count).map fun i =>
        .key .deleted (stage.session.erase (i + 1))) = (after, none) := by
      rw [← Session.deleting_eq_map _ hcount]
      rw [Step.deleteValue_natCast] at hafter
      exact hafter
    obtain ⟨draws, shares, htyped⟩ :=
      Stage.exists_pressed hkeys hfps hpositive .deleted _ _ hperformed
    exact ⟨after, draws, shares, hafter, htyped⟩

/-- A letter that is typed in fifty milliseconds, which are one and a half frames.  The arithmetic is
exact, and one frame is recorded. -/
theorem keys_recorded_oneLetter :
    ∃ after draws shares,
      Stage.execute (quietSetting usualConfig) (.typeText "a") default = (after, none) ∧
        Stage.Pressed usualConfig .typed 30 1 (fun i => ("a" : Text).take (i + 1)) draws shares default
          after ∧
        shares 0 = Key.typed.frames 30 (draws 0) ∧ after.frames.size = 1 := by
  have hsteady : (quietSetting usualConfig).Steady :=
    Setting.steady_of_moderate rfl usualConfig_moderate (fun _ => rfl) trivial
  have hkeystrokes : Keystrokes (quietSetting usualConfig) 30 default :=
    keys_recorded hsteady.clear hsteady.timesKeys rfl (by norm_num) default
  obtain ⟨after, draws, shares, hafter, htyped⟩ := hkeystrokes.typing "a"
  have htime := htyped.times 0 Nat.one_pos
  obtain ⟨typed, htypedDelay, hdraw⟩ := htime.drawn
  obtain ⟨delay, product, quotient, hdelay, hproduct, hquotient, hshare⟩ := htime.computed
  have hfifty : usualConfig.keyDelay .typed ((default : Twister).skip 0).next.1
      = .ok (.finite false 7036874417766400 (-47)) := by
    decide +kernel
  have hmultiplied : (Number.real (.finite false 7036874417766400 (-47))).mul usualConfig.fps
      = .ok (.real (.finite false 6597069766656000 (-42))) := by
    decide +kernel
  have hdivided : (Number.real (.finite false 6597069766656000 (-42))).div (.int 1000)
      = .ok (.finite false 6755399441055744 (-52)) := by
    decide +kernel
  obtain rfl := Except.ok.inj (htypedDelay.symm.trans hfifty)
  obtain rfl := Except.ok.inj (hdelay.symm.trans hfifty)
  obtain rfl := Except.ok.inj (hproduct.symm.trans hmultiplied)
  obtain rfl := Except.ok.inj (hquotient.symm.trans hdivided)
  have hdrawValue : draws 0 = 50 := by
    rw [hdraw.unique ⟨_, _, rfl, rfl⟩]
    norm_num
  have hshareValue : shares 0 = 3 / 2 := by
    rw [hshare.unique ⟨_, _, rfl, rfl⟩]
    norm_num
  have hexact : shares 0 = Key.typed.frames 30 (draws 0) := by
    rw [hdrawValue, hshareValue, Key.frames, Key.speedup]
    norm_num
  refine ⟨after, draws, shares, hafter, htyped, hexact, ?_⟩
  have hfloor : ⌊shares 0⌋₊ = 1 := by
    rw [hshareValue]
    norm_num
  have hsize := htyped.frames.size_frames
  have hlength : ("a" : Text).length = 1 := rfl
  have hnone : (default : Stage).frames.size = 0 := rfl
  simpa [hlength, hfloor, hnone] using hsize

/-- Where the cursor has no phase, a letter is not recorded, although every draw for it would come to a
frame at least. -/
theorem typing_unprojected :
    hugeBlink.TimesKeys ∧
      ((Stage.initial (.ofSeed 0)).execute (quietSetting hugeBlink) (.typeText "a")).1.frames.size = 0 ∧
      hugeBlink.fps.value? = some 30 ∧
      ∀ draw : ℚ, hugeBlink.typingSpeed ≤ draw → 1 ≤ ⌊Key.typed.frames 30 draw⌋₊ := by
  have hsteady : (quietSetting usualConfig).Steady :=
    Setting.steady_of_moderate rfl usualConfig_moderate (fun _ => rfl) trivial
  refine ⟨hsteady.timesKeys.congr rfl rfl, ?_, rfl, fun draw hdraw => ?_⟩
  · decide +kernel
  · have hspeed : ((hugeBlink.typingSpeed : Nat) : ℚ) = 50 := rfl
    rw [hspeed] at hdraw
    rw [Nat.one_le_floor_iff, Key.frames, Key.speedup, Nat.cast_one, le_div_iff₀ (by norm_num)]
    linarith

end Screencast
