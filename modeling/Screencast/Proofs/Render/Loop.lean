import Mathlib.Data.List.Nodup
import Screencast.Proofs.Render.Showing
import Screencast.Proofs.Render.Starts

/-!
# The loop of a document

The animations of a document form one ring: each begins when the one before it ends, and the first one
also when the document is opened.  So one text after the other is shown and hidden, in the order of the
runs, and it goes on like that for ever.

The places of the ring are counted from zero.  At the even places a text is shown, at the odd ones the
same text is hidden.
-/

namespace Screencast.Svg

/-- The id of the animation at a place. -/
def ringId (place : Nat) : List Char :=
  if place % 2 = 0 then enterId (place / 2 + 1) else leaveId (place / 2 + 1)

/-- The place before another one in a ring of so many texts. -/
def placeBefore (count place : Nat) : Nat := (place + (2 * count - 1)) % (2 * count)

/-- The animation at a place of a ring of so many texts; the text is that of a run of this length. -/
def link (config : Config) (count place length : Nat) : Xml :=
  if place % 2 = 0 then
    animate (enterId (place / 2 + 1)) ['0'] ['1'] (enterBegin (place / 2 + 1) count)
  else animate (leaveId (place / 2 + 1)) ['1'] ['0'] (leaveBegin config (place / 2 + 1) length)

theorem numeral_injective : Function.Injective numeral := by
  intro m n h
  have hvalue := congrArg Text.digitsValue h
  rwa [numeral, numeral, Text.digitsValue_toDigits, Text.digitsValue_toDigits] at hvalue

/-- Different places have different ids. -/
theorem ringId_injective : Function.Injective ringId := by
  intro i j h
  have hends : "enter".toList ≠ "leave".toList := by decide
  have hlength : "enter".toList.length = "leave".toList.length := by decide
  have hnumbers {suffix : List Char} {m n : Nat} (h : "frame".toList ++ numeral m ++ suffix
      = "frame".toList ++ numeral n ++ suffix) : m = n :=
    numeral_injective (List.append_cancel_left (List.append_cancel_right h))
  unfold ringId enterId leaveId at h
  by_cases hi : i % 2 = 0
  · by_cases hj : j % 2 = 0
    · rw [if_pos hi, if_pos hj] at h
      have hhalf := hnumbers h
      omega
    · rw [if_pos hi, if_neg hj] at h
      exact absurd (List.append_inj_right' h hlength) hends
  · by_cases hj : j % 2 = 0
    · rw [if_neg hi, if_pos hj] at h
      exact absurd (List.append_inj_right' h hlength.symm).symm hends
    · rw [if_neg hi, if_neg hj] at h
      have hhalf := hnumbers h
      omega

/-! ## One animation of the ring -/

theorem id_link (config : Config) (count place length : Nat) :
    (link config count place length).attribute? "id" = some (ringId place) := by
  unfold link ringId
  split
  · exact id_animate _ _ _ _
  · exact id_animate _ _ _ _

theorem to_link (config : Config) (count place length : Nat) :
    (link config count place length).attribute? "to"
      = some (if place % 2 = 0 then ['1'] else ['0']) := by
  unfold link
  split
  · exact to_animate _ _ _ _
  · exact to_animate _ _ _ _

section

variable {config : Config} {count place : Nat}

theorem placeBefore_zero (h : 0 < count) : placeBefore count 0 = 2 * count - 1 := by
  rw [placeBefore, Nat.zero_add]
  exact Nat.mod_eq_of_lt (by omega)

theorem placeBefore_pos (hplace : place < 2 * count) (hpos : place ≠ 0) :
    placeBefore count place = place - 1 := by
  have hsum : place + (2 * count - 1) = place - 1 + 2 * count := by omega
  rw [placeBefore, hsum, Nat.add_mod_right]
  exact Nat.mod_eq_of_lt (by omega)

/-- Going back from a place and going on from one undo each other. -/
theorem eq_placeBefore_iff {other : Nat} (hplace : place < 2 * count) (hother : other < 2 * count) :
    other = placeBefore count place ↔ place = (other + 1) % (2 * count) := by
  have hnext : (other + 1) % (2 * count) = if other + 1 = 2 * count then 0 else other + 1 := by
    split
    · next hlast => rw [hlast, Nat.mod_self]
    · next hlast => exact Nat.mod_eq_of_lt (by omega)
  rw [hnext]
  by_cases hfirst : place = 0
  · rw [hfirst, placeBefore_zero (by omega)]
    split <;> omega
  · rw [placeBefore_pos hplace hfirst]
    split <;> omega

/-- An animation waits for the one before it.  The first one also waits for the document to be opened, and
one that hides a text waits for as long as the text is shown. -/
theorem starts_link (config : Config) (length : Nat) (h : place < 2 * count) :
    starts (link config count place length)
      = (if place = 0 then [.clock "0s".toList] else [])
        ++ [.endOf (ringId (placeBefore count place))
          (if place % 2 = 0 then none else some (secondsText (config.timeShown length)))] := by
  by_cases hfirst : place = 0
  · subst hfirst
    have hodd : (2 * count - 1) % 2 ≠ 0 := by omega
    have hnumber : (2 * count - 1) / 2 + 1 = count := by omega
    rw [placeBefore_zero (by omega), ringId, if_neg hodd, hnumber]
    exact starts_enter 1 count ['0'] ['1']
  · rw [if_neg hfirst, List.nil_append, placeBefore_pos h hfirst]
    by_cases heven : place % 2 = 0
    · have hodd : (place - 1) % 2 ≠ 0 := by omega
      have hnumber : (place - 1) / 2 + 1 = place / 2 + 1 - 1 := by omega
      have hone : place / 2 + 1 ≠ 1 := by omega
      rw [link, if_pos heven, if_pos heven, starts_enter, if_neg hone, ringId, if_neg hodd, hnumber]
    · have heven' : (place - 1) % 2 = 0 := by omega
      have hnumber : (place - 1) / 2 + 1 = place / 2 + 1 := by omega
      rw [link, if_neg heven, if_neg heven, starts_leave, ringId, if_pos heven', hnumber]
      rfl

/-- The only animation that is waited for is the one before. -/
theorem eq_ringId_of_mem_starts {length : Nat} {id : List Char} {delay : Option (List Char)}
    (h : place < 2 * count) (hid : .endOf id delay ∈ starts (link config count place length)) :
    id = ringId (placeBefore count place) := by
  rw [starts_link config length h] at hid
  rcases List.mem_append.mp hid with hclock | hend
  · split at hclock
    · cases List.mem_singleton.mp hclock
    · cases hclock
  · cases List.mem_singleton.mp hend
    rfl

theorem opens_link (length : Nat) (h : place < 2 * count) :
    opens (link config count place length) = true ↔ place = 0 := by
  rw [opens, starts_link config length h]
  by_cases hfirst : place = 0
  · simp [hfirst]
  · simp [hfirst]

/-- An animation begins at the end of the one before it. -/
theorem follows_link {other : Nat} (length length' : Nat) (h : place < 2 * count)
    (h' : other < 2 * count) :
    follows (link config count place length) (link config count other length') = true ↔
      place = (other + 1) % (2 * count) := by
  rw [← eq_placeBefore_iff h h', ← ringId_injective.eq_iff, follows, starts_link config length h,
    id_link]
  by_cases hfirst : place = 0
  · simp [hfirst]
  · simp [hfirst]

end

/-! ## All animations of a document -/

section

variable {config : Config} {style color : List Char} {runs : List Run}

theorem getElem?_animations (config : Config) (style color : List Char) (runs : List Run)
    (place : Nat) :
    ((root config style color runs).named "animate")[place]?
      = runs[place / 2]?.map fun run => link config runs.length place run.length := by
  have hroot : (root config style color runs).named "animate"
      = Xml.namedAll "animate" (textElements config runs.length 1 runs) := by
    simp [root, background, Xml.empty, Xml.named, Xml.namedAll]
  -- the animations of the texts after the first ones
  have htexts (count before : Nat) (runs : List Run) (place : Nat) :
      (Xml.namedAll "animate" (textElements config count (before + 1) runs))[place]?
        = runs[place / 2]?.map fun run => link config count (2 * before + place) run.length := by
    induction runs generalizing before place with
    | nil => rfl
    | cons run rest ih =>
        rw [textElements, Xml.namedAll, animations_textElement]
        rcases place with _ | _ | place
        · have hplace : 2 * before % 2 = 0 := by omega
          simp [link, hplace]
        · have hnumber : (2 * before + 1) / 2 + 1 = before + 1 := by omega
          simp [link, hnumber]
        · have hhalf : (place + 2) / 2 = place / 2 + 1 := by omega
          have hsum : 2 * (before + 1) + place = 2 * before + (place + 2) := by omega
          rw [hhalf, List.getElem?_cons_succ, ← hsum]
          exact ih (before + 1) place
  rw [hroot, htexts runs.length 0 runs place]
  simp only [Nat.mul_zero, Nat.zero_add]

/-- What stands at a place of the document is an animation of the ring. -/
theorem animations_eq_some {place : Nat} {animation : Xml}
    (h : ((root config style color runs).named "animate")[place]? = some animation) :
    place < 2 * runs.length ∧
      ∃ run, runs[place / 2]? = some run ∧
        animation = link config runs.length place run.length := by
  rw [getElem?_animations, Option.map_eq_some_iff] at h
  obtain ⟨run, hrun, rfl⟩ := h
  have hhalf := (List.getElem?_eq_some_iff.mp hrun).1
  exact ⟨by omega, run, hrun, rfl⟩

theorem length_animations (config : Config) (style color : List Char) (runs : List Run) :
    ((root config style color runs).named "animate").length = 2 * runs.length := by
  have hnone (place : Nat) : ((root config style color runs).named "animate").length ≤ place ↔
      2 * runs.length ≤ place := by
    rw [← List.getElem?_eq_none_iff, getElem?_animations, Option.map_eq_none_iff,
      List.getElem?_eq_none_iff]
    omega
  exact Nat.le_antisymm ((hnone _).mpr (Nat.le_refl _)) ((hnone _).mp (Nat.le_refl _))

/-- The animations of a document have the ids of the ring, in order. -/
theorem ids_animations (config : Config) (style color : List Char) (runs : List Run) :
    ((root config style color runs).named "animate").map (Xml.attribute? "id")
      = (List.range (2 * runs.length)).map fun place => some (ringId place) := by
  refine List.ext_getElem? fun place => ?_
  rw [List.getElem?_map, List.getElem?_map]
  rcases hanimation : ((root config style color runs).named "animate")[place]? with _ | animation
  · rw [List.getElem?_eq_none_iff, length_animations] at hanimation
    rw [List.getElem?_eq_none_iff.mpr (by rwa [List.length_range])]
    rfl
  · obtain ⟨hplace, run, -, rfl⟩ := animations_eq_some hanimation
    rw [List.getElem?_range hplace, Option.map_some, Option.map_some, id_link]

/-- A condition that holds at one place only leaves what stands there. -/
theorem filter_eq_singleton {α : Type} {test : α → Bool} {xs : List α} {x : α} (place : Nat)
    (hx : xs[place]? = some x)
    (htest : ∀ other y, xs[other]? = some y → (test y = true ↔ other = place)) :
    xs.filter test = [x] := by
  induction xs generalizing place with
  | nil => cases hx
  | cons first rest ih =>
      cases place with
      | zero =>
          obtain rfl : first = x := Option.some.inj hx
          have hrest : rest.filter test = [] := by
            rw [List.filter_eq_nil_iff]
            intro y hy hpass
            obtain ⟨k, hk⟩ := List.mem_iff_getElem?.mp hy
            have hzero := (htest (k + 1) y (by rw [List.getElem?_cons_succ, hk])).mp hpass
            cases hzero
          rw [List.filter_cons_of_pos ((htest 0 first rfl).mpr rfl), hrest]
      | succ place =>
          have hfirst : ¬ test first = true := by
            intro hpass
            have hplace := (htest 0 first rfl).mp hpass
            cases hplace
          rw [List.filter_cons_of_neg hfirst]
          refine ih place hx fun other y hy => ?_
          rw [htest (other + 1) y (by rw [List.getElem?_cons_succ, hy]), Nat.add_left_inj]

/-- In each round the animation at one place plays: round by round, the places are passed in order, again
and again. -/
theorem playing_animations (config : Config) (style color : List Char) {runs : List Run}
    (hruns : runs ≠ []) (round : Nat) :
    ∃ run, runs[round % (2 * runs.length) / 2]? = some run ∧
      playing ((root config style color runs).named "animate") round
        = [link config runs.length (round % (2 * runs.length)) run.length] := by
  have hlength : 0 < runs.length := List.length_pos_iff.mpr hruns
  have hrun (place : Nat) (h : place < 2 * runs.length) : ∃ run, runs[place / 2]? = some run :=
    ⟨_, List.getElem?_eq_getElem (by omega)⟩
  induction round with
  | zero =>
      have hzero : 0 < 2 * runs.length := by omega
      obtain ⟨run, hfirst⟩ := hrun 0 hzero
      rw [Nat.zero_mod]
      refine ⟨run, hfirst, filter_eq_singleton 0 ?_ fun other animation h => ?_⟩
      · rw [getElem?_animations, hfirst, Option.map_some]
      · obtain ⟨hother, run', -, rfl⟩ := animations_eq_some h
        exact opens_link _ hother
  | succ round ih =>
      obtain ⟨before, -, hbefore⟩ := ih
      have hplace (n : Nat) : n % (2 * runs.length) < 2 * runs.length := Nat.mod_lt _ (by omega)
      obtain ⟨run, hnext⟩ := hrun _ (hplace (round + 1))
      refine ⟨run, hnext, filter_eq_singleton ((round + 1) % (2 * runs.length)) ?_
        fun other animation h => ?_⟩
      · rw [getElem?_animations, hnext, Option.map_some]
      · obtain ⟨hother, run', -, rfl⟩ := animations_eq_some h
        rw [hbefore, List.any_cons, List.any_nil, Bool.or_false,
          follows_link _ _ hother (hplace round), Nat.mod_add_mod]

/-! ## What is seen -/

/-- A text has the animations at two places of the ring. -/
theorem belongs_textElement {k place : Nat} (count other length : Nat) (run : Run) :
    belongs (textElement config (k + 1) count run) (link config other place length) = true ↔
      place / 2 = k := by
  have heven : 2 * k % 2 = 0 := by omega
  have hodd : (2 * k + 1) % 2 ≠ 0 := by omega
  have hnumber : 2 * k / 2 + 1 = k + 1 := by omega
  have hnumber' : (2 * k + 1) / 2 + 1 = k + 1 := by omega
  have hids : ((textElement config (k + 1) count run).named "animate").map (Xml.attribute? "id")
      = [some (ringId (2 * k)), some (ringId (2 * k + 1))] := by
    rw [animations_textElement, ringId, if_pos heven, ringId, if_neg hodd, hnumber, hnumber',
      List.map_cons, List.map_singleton, id_animate, id_animate]
  simp only [belongs, hids, id_link, List.contains_iff_mem, List.mem_cons, List.not_mem_nil, or_false,
    Option.some.injEq, ringId_injective.eq_iff]
  omega

/-- A round changes the one text that its animation belongs to. -/
theorem opacity_succ {k : Nat} {run : Run} (h : runs[k]? = some run) (round : Nat) :
    opacity (root config style color runs) (textElement config (k + 1) runs.length run) (round + 1)
      = if round / 2 % runs.length = k then some (if round % 2 = 0 then ['1'] else ['0'])
        else opacity (root config style color runs) (textElement config (k + 1) runs.length run)
          round := by
  obtain ⟨other, -, hplaying⟩ := playing_animations config style color
    (List.ne_nil_of_mem (List.mem_of_getElem? h)) round
  have hhalf : round % (2 * runs.length) / 2 = round / 2 % runs.length :=
    Nat.mod_mul_right_div_self round 2 runs.length
  have hparity : round % (2 * runs.length) % 2 = round % 2 :=
    Nat.mod_mod_of_dvd round (Nat.dvd_mul_right 2 runs.length)
  have hmine : belongs (textElement config (k + 1) runs.length run)
      (link config runs.length (round % (2 * runs.length)) other.length) = true ↔
        round / 2 % runs.length = k := by
    rw [belongs_textElement, hhalf]
  rw [opacity, hplaying]
  by_cases hplace : round / 2 % runs.length = k
  · rw [if_pos hplace, List.filter_cons_of_pos (hmine.mpr hplace), List.filter_nil,
      List.getLast?_singleton]
    exact (to_link _ _ _ _).trans (by rw [hparity])
  · rw [if_neg hplace, List.filter_cons_of_neg fun hbelongs => hplace (hmine.mp hbelongs),
      List.filter_nil, List.getLast?_nil]

/-- A text is visible after it is shown and until it is hidden, in its part of each turn of the ring. -/
theorem opacity_textElement {k : Nat} {run : Run} (h : runs[k]? = some run) (round : Nat) :
    opacity (root config style color runs) (textElement config (k + 1) runs.length run) round
      = some (if round % 2 = 1 ∧ round / 2 % runs.length = k then ['1'] else ['0']) := by
  induction round with
  | zero => simp [opacity, textElement, Xml.attribute?, List.lookup_cons]
  | succ round ih =>
      rw [opacity_succ h, ih]
      by_cases hplace : round / 2 % runs.length = k
      · rw [if_pos hplace]
        by_cases heven : round % 2 = 0
        · have hsame : (round + 1) / 2 = round / 2 := by omega
          have hodd : (round + 1) % 2 = 1 := by omega
          rw [if_pos heven, hsame, if_pos ⟨hodd, hplace⟩]
        · have hodd : (round + 1) % 2 ≠ 1 := by omega
          rw [if_neg heven, if_neg fun hshown => hodd hshown.1]
      · have hother : ¬ ((round + 1) % 2 = 1 ∧ (round + 1) / 2 % runs.length = k) := by
          rintro ⟨hodd, hnext⟩
          have hsame : (round + 1) / 2 = round / 2 := by omega
          rw [hsame] at hnext
          exact hplace hnext
        rw [if_neg hplace, if_neg fun hshown => hplace hshown.2, if_neg hother]

end

/-! ## The loop -/

/-- That the animations of a document form one loop through the texts of runs. -/
structure ClosedLoop (config : Config) (runs : List Run) (document : Xml) : Prop where
  /-- The animations in their order: each text is shown and hidden. -/
  ids : (document.named "animate").map (Xml.attribute? "id")
    = (List.range (2 * runs.length)).map fun place => some (ringId place)
  distinct : ((document.named "animate").map (Xml.attribute? "id")).Nodup
  /-- An animation that another one waits for is there once. -/
  known : ∀ animation ∈ document.named "animate", ∀ id delay, .endOf id delay ∈ starts animation →
    ((document.named "animate").map (Xml.attribute? "id")).count (some id) = 1
  /-- An animation begins at the end of the one before it only. -/
  cycle : ∀ i j animation ended, (document.named "animate")[j]? = some animation →
    (document.named "animate")[i]? = some ended →
    (follows animation ended = true ↔ j = (i + 1) % (2 * runs.length))
  /-- The first animation alone waits for a time of the document, which is its beginning. -/
  opening : ∀ place animation, (document.named "animate")[place]? = some animation →
    ∀ time, .clock time ∈ starts animation ↔ place = 0 ∧ time = "0s".toList
  /-- A text shows the lines of its run.  It is shown when the text before it is hidden, and hidden when it
  has been shown for as many seconds as the run takes, spelled with six decimal places. -/
  texts : ∀ k run, runs[k]? = some run → ∃ text enter leave seconds,
    (document.named "text")[k]? = some text ∧
    (text.named "tspan").map (fun line => Text.ofChars line.content) = run.frame ∧
    text.named "animate" = [enter, leave] ∧
    (document.named "animate")[2 * k]? = some enter ∧
    (document.named "animate")[2 * k + 1]? = some leave ∧
    starts enter = (if k = 0 then [.clock "0s".toList, .endOf (leaveId runs.length) none]
      else [.endOf (leaveId k) none]) ∧
    starts leave = [.endOf (enterId (k + 1)) (some (seconds ++ ['s']))] ∧
    Binary64.Spells 6 ((config.timeShown run.length).div (.ofInt 1000)) seconds
  /-- One animation plays at a time, in the order of the ring and for ever. -/
  plays : ∀ round, ∃ animation,
    (document.named "animate")[round % (2 * runs.length)]? = some animation ∧
      playing (document.named "animate") round = [animation]
  /-- One text is visible at a time, in the order of the runs and for ever. -/
  shows : ∀ k text, (document.named "text")[k]? = some text → ∀ round,
    opacity document text round
      = some (if round % 2 = 1 ∧ round / 2 % runs.length = k then ['1'] else ['0'])

/-- The animations of a document that can be made form one loop through the texts of its runs. -/
theorem closedLoop_documentOf {config : Config} {frames : List Frame} {document : Xml}
    (hruns : Frame.runs frames ≠ []) (h : documentOf config frames = .ok document) :
    ClosedLoop config (Frame.runs frames) document := by
  obtain ⟨⟨style, color, rfl⟩, hholds⟩ := documentOf_eq_ok h
  have hids := ids_animations config style color (Frame.runs frames)
  have hinjective : Function.Injective fun place => some (ringId place) :=
    (Option.some_injective _).comp ringId_injective
  have hdistinct : ((List.range (2 * (Frame.runs frames).length)).map fun place =>
      some (ringId place)).Nodup := List.Nodup.map hinjective List.nodup_range
  refine ⟨hids, hids ▸ hdistinct, ?known, ?cycle, ?opening, ?texts, ?plays, ?shows⟩
  case known =>
    intro animation hanimation id delay hid
    obtain ⟨place, hplace⟩ := List.mem_iff_getElem?.mp hanimation
    obtain ⟨hlt, run, -, rfl⟩ := animations_eq_some hplace
    have hbefore : placeBefore (Frame.runs frames).length place < 2 * (Frame.runs frames).length :=
      Nat.mod_lt _ (by omega)
    rw [hids, eq_ringId_of_mem_starts hlt hid]
    refine List.count_eq_one_of_mem hdistinct (List.mem_map.mpr ⟨_, ?_, rfl⟩)
    exact List.mem_range.mpr hbefore
  case cycle =>
    intro i j animation ended hanimation hended
    obtain ⟨hj, run, -, rfl⟩ := animations_eq_some hanimation
    obtain ⟨hi, other, -, rfl⟩ := animations_eq_some hended
    exact follows_link _ _ hj hi
  case opening =>
    intro place animation hanimation time
    obtain ⟨hplace, run, -, rfl⟩ := animations_eq_some hanimation
    rw [starts_link config run.length hplace]
    by_cases hfirst : place = 0
    · simp [hfirst]
    · simp [hfirst]
  case texts =>
    intro k run hrun
    have heven : 2 * k % 2 = 0 := by omega
    have hodd : (2 * k + 1) % 2 ≠ 0 := by omega
    have hhalf : 2 * k / 2 = k := by omega
    have hhalf' : (2 * k + 1) / 2 = k := by omega
    have hlines := hholds run (List.mem_of_getElem? hrun)
    refine ⟨textElement config (k + 1) (Frame.runs frames).length run, _, _, _, ?_, ?_,
      animations_textElement _ _ _, ?_, ?_, ?_, ?_, Binary64.spells_fixedText (by decide) _⟩
    · rw [named_text_root, List.getElem?_mapIdx, hrun, Option.map_some]
    · exact lines_textElement fun line hline => (hlines line hline).characters
    · rw [getElem?_animations, hhalf, hrun, Option.map_some, link, if_pos heven, hhalf]
    · rw [getElem?_animations, hhalf', hrun, Option.map_some, link, if_neg hodd, hhalf']
    · rw [starts_enter]
      by_cases hfirst : k = 0
      · rw [if_pos hfirst, if_pos (by omega)]
      · rw [if_neg hfirst, if_neg (by omega), Nat.add_sub_cancel]
    · exact starts_leave _ _ _ _ _
  case plays =>
    intro round
    obtain ⟨run, hrun, hplaying⟩ := playing_animations config style color hruns round
    refine ⟨_, ?_, hplaying⟩
    rw [getElem?_animations, hrun, Option.map_some]
  case shows =>
    intro k text htext round
    rw [named_text_root, List.getElem?_mapIdx, Option.map_eq_some_iff] at htext
    obtain ⟨run, hrun, rfl⟩ := htext
    exact opacity_textElement hrun round

theorem closedLoop_smallFrames : ∃ document, documentOf smallConfig smallFrames = .ok document ∧
    ClosedLoop smallConfig (Frame.runs smallFrames) document ∧
    (document.named "animate").map starts
      = [[.clock "0s".toList, .endOf "frame2leave".toList none],
        [.endOf "frame1enter".toList (some "0.200000s".toList)],
        [.endOf "frame1leave".toList none],
        [.endOf "frame2enter".toList (some "0.100000s".toList)]] := by
  have hruns : Frame.runs smallFrames ≠ [] := by decide
  have hmade : (documentOf smallConfig smallFrames).toOption.map
      (fun document => (document.named "animate").map starts)
        = some [[.clock "0s".toList, .endOf "frame2leave".toList none],
          [.endOf "frame1enter".toList (some "0.200000s".toList)],
          [.endOf "frame1leave".toList none],
          [.endOf "frame2enter".toList (some "0.100000s".toList)]] := by decide +kernel
  cases h : documentOf smallConfig smallFrames with
  | error failure =>
      rw [h] at hmade
      cases hmade
  | ok document =>
      rw [h] at hmade
      exact ⟨document, rfl, closedLoop_documentOf hruns h, Option.some.inj hmade⟩

end Screencast.Svg
