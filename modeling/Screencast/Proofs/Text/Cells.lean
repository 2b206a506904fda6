import Screencast.Text.Width

/-!
# The width of texts put together

The width of a text is not the sum of the widths of its parts: a joiner at the end of one part hides the
code point that the next part begins with.  `displayWidth_append` says how wide a text becomes with blanks
or a piece of a border behind it, and `displayWidth_cons` with such a code point before it.  A text with
two control characters in a row has no width: `widthAfter_eq_none_of_controls`.
-/

namespace Screencast.Text

/-- A code point that takes one cell and cannot be widened. -/
structure IsCell (c : CodePoint) : Prop where
  cellCount : cellCount? c = some 1
  notJoiner : c ≠ zeroWidthJoiner
  notSelector : c ≠ emojiSelector
  notWidened : inRanges widenedAsEmoji c.toNat = false

/-- Whether a text ends in a joiner that hides whatever comes next. -/
def endsInJoiner : Text → Bool
  | [] => false
  | c :: rest =>
    if c = zeroWidthJoiner then
      match rest with
      | [] => true
      | _ :: rest => endsInJoiner rest
    else endsInJoiner rest

variable {c : CodePoint} {text cells : Text}

/-! ## One code point after the other -/

theorem widthAfter_joiner (last : Option CodePoint) (hidden : CodePoint) (rest : Text) :
    widthAfter last (zeroWidthJoiner :: hidden :: rest) = widthAfter last rest := by
  rw [widthAfter, if_pos rfl]

theorem widthAfter_joiner_nil (last : Option CodePoint) :
    widthAfter last [zeroWidthJoiner] = some 0 := by
  rw [widthAfter, if_pos rfl]

theorem widthAfter_selector {last : Option CodePoint} (hlast : last.isSome = true) (rest : Text) :
    widthAfter last (emojiSelector :: rest) = (widthAfter none rest).map
      ((if last.any fun before => inRanges widenedAsEmoji before.toNat then 1 else 0) + ·) := by
  have hne : emojiSelector ≠ zeroWidthJoiner := by decide
  have hnil : widthAfter none [] = some 0 := by rw [widthAfter]
  cases rest with
  | nil => rw [hnil, widthAfter, if_neg hne, if_pos ⟨rfl, hlast⟩, hnil]
  | cons next rest => rw [widthAfter, if_neg hne, if_pos ⟨rfl, hlast⟩]

theorem widthAfter_cons {last : Option CodePoint} (hjoiner : c ≠ zeroWidthJoiner)
    (hselector : ¬(c = emojiSelector ∧ last.isSome = true)) (rest : Text) :
    widthAfter last (c :: rest) = (cellCount? c).bind fun count =>
      (widthAfter (if count = 0 then last else some c) rest).map (count + ·) := by
  have hbind (count : Nat) : (widthAfter (if count = 0 then last else some c) rest).map (count + ·)
      = (widthAfter (if count = 0 then last else some c) rest).bind fun width =>
          some (count + width) := by
    cases widthAfter (if count = 0 then last else some c) rest <;> rfl
  simp only [hbind]
  cases rest with
  | nil => rw [widthAfter, if_neg hjoiner, if_neg hselector]; rfl
  | cons next rest => rw [widthAfter, if_neg hjoiner, if_neg hselector]; rfl

theorem widthAfter_cell (h : IsCell c) (last : Option CodePoint) (rest : Text) :
    widthAfter last (c :: rest) = (widthAfter (some c) rest).map (1 + ·) := by
  rw [widthAfter_cons h.notJoiner fun hboth => h.notSelector hboth.1, h.cellCount]
  rfl

/-! ## Cells behind a text -/

theorem widthAfter_cells (h : ∀ c ∈ cells, IsCell c) (last : Option CodePoint) :
    widthAfter last cells = some cells.length := by
  induction cells generalizing last with
  | nil => rfl
  | cons c rest ih =>
      obtain ⟨hc, hrest⟩ := List.forall_mem_cons.mp h
      rw [widthAfter_cell hc, ih hrest, Option.map_some, List.length_cons, Nat.add_comm]

/-- How many cells of those behind a text can be seen: a joiner at its end hides one. -/
def seenBehind (text cells : Text) : Nat := cells.length - if text.endsInJoiner then 1 else 0

theorem endsInJoiner_cons (h : c ≠ zeroWidthJoiner) (rest : Text) :
    endsInJoiner (c :: rest) = endsInJoiner rest := by
  cases rest <;> simp [endsInJoiner, h]

/-- A last code point is hidden, or it does not hide. -/
theorem endsInJoiner_concat (h : c ≠ zeroWidthJoiner) (text : Text) :
    endsInJoiner (text ++ [c]) = false := by
  induction text using endsInJoiner.induct with
  | case1 => rw [List.nil_append, endsInJoiner_cons h, endsInJoiner]
  | case2 => rfl
  | case3 hidden rest ih => simpa [endsInJoiner] using ih
  | case4 next rest hnext ih => rw [List.cons_append, endsInJoiner_cons hnext, ih]

theorem seenBehind_cons (h : c ≠ zeroWidthJoiner) (rest cells : Text) :
    seenBehind (c :: rest) cells = seenBehind rest cells := by
  rw [seenBehind, endsInJoiner_cons h, seenBehind]

/-- Blanks and pieces of a border add as many cells as can be seen of them. -/
theorem widthAfter_append (h : ∀ c ∈ cells, IsCell c) (last : Option CodePoint) :
    widthAfter last (text ++ cells) = (widthAfter last text).map (· + seenBehind text cells) := by
  induction last, text using widthAfter.induct with
  | case1 last =>
      rw [List.nil_append, widthAfter_cells h, widthAfter, Option.map_some, Nat.zero_add]
      rfl
  | case2 last =>
      rw [widthAfter_joiner_nil, Option.map_some, Nat.zero_add]
      cases cells with
      | nil => exact widthAfter_joiner_nil last
      | cons hidden rest =>
          rw [List.singleton_append, widthAfter_joiner,
            widthAfter_cells (List.forall_mem_cons.mp h).2]
          rfl
  | case3 last hidden rest ih =>
      have hseen : seenBehind (zeroWidthJoiner :: hidden :: rest) cells = seenBehind rest cells := by
        rw [seenBehind, endsInJoiner, if_pos rfl, seenBehind]
      rw [List.cons_append, List.cons_append, widthAfter_joiner, widthAfter_joiner, ih, hseen]
  | case4 last c rest hjoiner hselector ih =>
      obtain ⟨rfl, hlast⟩ := hselector
      rw [List.cons_append, widthAfter_selector hlast, widthAfter_selector hlast, ih,
        seenBehind_cons hjoiner, Option.map_map, Option.map_map]
      congr 1
      funext width
      exact Nat.add_assoc _ _ _ |>.symm
  | case5 last c rest hjoiner hselector ih =>
      rw [List.cons_append, widthAfter_cons hjoiner hselector, widthAfter_cons hjoiner hselector,
        seenBehind_cons hjoiner]
      cases cellCount? c with
      | none => rfl
      | some count =>
          simp only [Option.bind_some]
          rw [ih count, Option.map_map, Option.map_map]
          congr 1
          funext width
          exact Nat.add_assoc _ _ _ |>.symm

theorem displayWidth_append (h : ∀ c ∈ cells, IsCell c) :
    displayWidth (text ++ cells) = (displayWidth text).map (· + seenBehind text cells) :=
  widthAfter_append h none

/-! ## A cell before a text -/

/-- A code point that cannot be widened is as good as none before a text. -/
theorem widthAfter_some (hc : inRanges widenedAsEmoji c.toNat = false) (text : Text) :
    widthAfter (some c) text = widthAfter none text := by
  have hstart : ∀ last : Option CodePoint,
      last = none → widthAfter (some c) text = widthAfter none text := by
    intro last
    induction last, text using widthAfter.induct with
    | case1 last => exact fun _ => by rw [widthAfter, widthAfter]
    | case2 last => exact fun _ => by rw [widthAfter_joiner_nil, widthAfter_joiner_nil]
    | case3 last hidden rest ih =>
        intro hlast
        rw [widthAfter_joiner, widthAfter_joiner, ih hlast]
    | case4 last next rest hjoiner hselector ih =>
        rintro rfl
        cases hselector.2
    | case5 last next rest hjoiner hselector ih =>
        rintro rfl
        rw [widthAfter_cons hjoiner hselector]
        by_cases hnext : next = emojiSelector
        · -- a selector widens nothing and has no width of its own either
          subst hnext
          have hnone : cellCount? emojiSelector = some 0 := by decide +kernel
          rw [widthAfter_selector rfl, hnone, Option.bind_some, if_pos rfl]
          simp [hc]
        · have hplain : ¬(next = emojiSelector ∧ (some c).isSome = true) := fun h => hnext h.1
          rw [widthAfter_cons hjoiner hplain]
          cases cellCount? next with
          | none => rfl
          | some count =>
              simp only [Option.bind_some]
              by_cases hcount : count = 0
              · have hrest := ih 0 rfl
                rw [if_pos hcount, if_pos hcount, hrest]
              · rw [if_neg hcount, if_neg hcount]
  exact hstart none rfl

theorem displayWidth_cons (h : IsCell c) (text : Text) :
    displayWidth (c :: text) = (displayWidth text).map (1 + ·) := by
  rw [displayWidth, widthAfter_cell h, widthAfter_some h.notWidened, displayWidth]

/-! ## Control characters -/

theorem ne_joiner_of_control (h : cellCount? c = none) : c ≠ zeroWidthJoiner := by
  rintro rfl
  exact absurd h (by decide +kernel)

theorem ne_selector_of_control (h : cellCount? c = none) : c ≠ emojiSelector := by
  rintro rfl
  exact absurd h (by decide +kernel)

theorem widthAfter_control (h : cellCount? c = none) (last : Option CodePoint) (rest : Text) :
    widthAfter last (c :: rest) = none := by
  rw [widthAfter_cons (ne_joiner_of_control h) fun hboth => ne_selector_of_control h hboth.1, h]
  rfl

/-- A joiner may hide one control character, but not two of them in a row. -/
theorem widthAfter_eq_none_of_controls {first second : CodePoint} (hfirst : cellCount? first = none)
    (hsecond : cellCount? second = none) (last : Option CodePoint) (h : [first, second] <:+: text) :
    widthAfter last text = none := by
  have hstart {c : CodePoint} {rest : Text} (h : [first, second] <+: c :: rest) :
      c = first ∧ ∃ tail, rest = second :: tail := by
    obtain ⟨tail, htail⟩ := h
    cases htail
    exact ⟨rfl, tail, rfl⟩
  induction last, text using widthAfter.induct with
  | case1 last => cases List.infix_nil.mp h
  | case2 last => exact absurd h.length_le (by simp)
  | case3 last hidden rest ih =>
      rw [widthAfter_joiner]
      rcases List.infix_cons_iff.mp h with h | h
      · exact absurd (hstart h).1.symm (ne_joiner_of_control hfirst)
      · rcases List.infix_cons_iff.mp h with h | h
        · obtain ⟨-, tail, rfl⟩ := hstart h
          exact widthAfter_control hsecond last tail
        · exact ih h
  | case4 last c rest hjoiner hselector ih =>
      obtain ⟨rfl, hlast⟩ := hselector
      rw [widthAfter_selector hlast]
      rcases List.infix_cons_iff.mp h with h | h
      · exact absurd (hstart h).1.symm (ne_selector_of_control hfirst)
      · rw [ih h, Option.map_none]
  | case5 last c rest hjoiner hselector ih =>
      rcases List.infix_cons_iff.mp h with h | h
      · obtain ⟨rfl, -⟩ := hstart h
        exact widthAfter_control hfirst last rest
      · rw [widthAfter_cons hjoiner hselector]
        cases hcount : cellCount? c with
        | none => rfl
        | some count => rw [Option.bind_some, ih count h, Option.map_none]

end Screencast.Text
