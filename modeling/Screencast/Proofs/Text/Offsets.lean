import Screencast.Text.Lines

/-!
# Where lines stand in a text

The lines of a text stand in it one after the other, each but the last one with a line feed behind it.
`lineStart` says where a line begins; from there on the text is that of this line and the later ones
(`joinLines_drop`), and up to a place in the line it is that of the earlier ones and the line cut there
(`joinLines_take_concat`).  `FirstLines` says the same of a text alone: it is what stands in the text up to
and with a line feed that is counted.
-/

namespace Screencast.Text

/-- Where a line begins in the text of the lines: behind the earlier ones and their line feeds. -/
def lineStart : List Text → Nat → Nat
  | line :: rest, k + 1 => line.length + 1 + lineStart rest k
  | _, _ => 0

@[simp] theorem lineStart_zero (lines : List Text) : lineStart lines 0 = 0 := by
  cases lines <;> rfl

@[simp] theorem lineStart_succ (line : Text) (rest : List Text) (k : Nat) :
    lineStart (line :: rest) (k + 1) = line.length + 1 + lineStart rest k := rfl

theorem lineStart_take (lines : List Text) (k : Nat) :
    lineStart (lines.take k) k = lineStart lines k := by
  induction lines generalizing k with
  | nil => rw [List.take_nil]
  | cons line rest ih =>
      cases k with
      | zero => rw [lineStart_zero, lineStart_zero]
      | succ k => rw [List.take_succ_cons, lineStart_succ, lineStart_succ, ih]

/-- Where a line begins depends on the earlier lines only. -/
theorem lineStart_congr {lines others : List Text} {k : Nat} (h : lines.take k = others.take k) :
    lineStart lines k = lineStart others k := by
  rw [← lineStart_take lines, h, lineStart_take]

theorem joinLines_singleton (line : Text) : joinLines [line] = line := rfl

theorem joinLines_cons (line : Text) {rest : List Text} (h : rest ≠ []) :
    joinLines (line :: rest) = line ++ .char '\n' :: joinLines rest := by
  cases rest with
  | nil => exact absurd rfl h
  | cons next rest =>
      rw [joinLines, joinWith, List.append_assoc]
      · rfl
      · intro hnil
        cases hnil

/-- From the beginning of a line on, the text is that of this line and the later ones. -/
theorem joinLines_drop {lines : List Text} {k : Nat} (h : k < lines.length) :
    joinLines (lines.drop k) = (joinLines lines).drop (lineStart lines k) := by
  induction lines generalizing k with
  | nil => exact absurd h (Nat.not_lt_zero k)
  | cons line rest ih =>
      cases k with
      | zero => rfl
      | succ k =>
          have hk : k < rest.length := by
            rw [List.length_cons] at h
            omega
          have hrest : rest ≠ [] := List.ne_nil_of_length_pos (by omega)
          have hplace : line.length + 1 + lineStart rest k
              = line.length + (lineStart rest k + 1) := by omega
          rw [List.drop_succ_cons, ih hk, joinLines_cons line hrest, lineStart_succ, hplace,
            List.drop_length_add_append, List.drop_succ_cons]

/-- Up to a place in a line, the text is that of the earlier lines and of the line up to there. -/
theorem joinLines_take_concat {lines : List Text} {k : Nat} {line : Text}
    (h : lines[k]? = some line) {column : Nat} (hcolumn : column ≤ line.length) :
    joinLines (lines.take k ++ [line.take column])
      = (joinLines lines).take (lineStart lines k + column) := by
  induction lines generalizing k with
  | nil => cases h
  | cons first rest ih =>
      cases k with
      | zero =>
          obtain rfl : first = line := Option.some.inj h
          rw [List.take_zero, List.nil_append, lineStart_zero, Nat.zero_add, joinLines_singleton]
          cases rest with
          | nil => rfl
          | cons next rest =>
              have hne : next :: rest ≠ [] := List.cons_ne_nil next rest
              rw [joinLines_cons first hne, List.take_append_of_le_length hcolumn]
      | succ k =>
          have hrest : rest ≠ [] := by
            rintro rfl
            cases h
          have hplace : first.length + 1 + lineStart rest k + column
              = first.length + (lineStart rest k + column + 1) := by omega
          have hne : rest.take k ++ [line.take column] ≠ [] := by simp
          rw [List.take_succ_cons, List.cons_append, joinLines_cons first hne, ih h,
            joinLines_cons first hrest, lineStart_succ, hplace, List.take_length_add_append,
            List.take_succ_cons]

/-- The text of the lines goes at least to the end of each. -/
theorem lineStart_add_length_le {lines : List Text} {k : Nat} {line : Text}
    (h : lines[k]? = some line) : lineStart lines k + line.length ≤ (joinLines lines).length := by
  induction lines generalizing k with
  | nil => cases h
  | cons first rest ih =>
      cases k with
      | zero =>
          obtain rfl : first = line := Option.some.inj h
          rw [lineStart_zero, Nat.zero_add]
          cases rest with
          | nil => exact Nat.le_refl _
          | cons next rest =>
              rw [joinLines_cons first (List.cons_ne_nil next rest), List.length_append]
              exact Nat.le_add_right _ _
      | succ k =>
          have hrest : rest ≠ [] := by
            rintro rfl
            cases h
          have hlater := ih h
          rw [joinLines_cons first hrest, lineStart_succ, List.length_append, List.length_cons]
          omega

/-- What is behind the last line is behind the text. -/
theorem joinLines_concat_append (lines : List Text) (last more : Text) :
    joinLines (lines ++ [last ++ more]) = joinLines (lines ++ [last]) ++ more := by
  induction lines with
  | nil => rfl
  | cons line rest ih =>
      rw [List.cons_append, joinLines_cons line (List.append_ne_nil_of_right_ne_nil _ (by simp)), ih,
        List.cons_append, joinLines_cons line (List.append_ne_nil_of_right_ne_nil _ (by simp)),
        List.append_assoc, List.cons_append]

/-! ## The first lines -/

/-- What a text begins with up to and with so many line feeds. -/
structure FirstLines (text : Text) (count : Nat) (first : Text) : Prop where
  begins : first <+: text
  lineFeeds : first.count (.char '\n') = count
  ends : first = [] ∨ first.getLast? = some (.char '\n')

theorem lineFeed_not_mem_splitLines {text line : Text} (h : line ∈ splitLines text) :
    .char '\n' ∉ line := by
  rw [splitLines] at h
  induction text generalizing line with
  | nil =>
      obtain rfl := List.mem_singleton.mp h
      exact List.not_mem_nil
  | cons c rest ih =>
      rw [splitAt] at h
      by_cases hc : c = .char '\n'
      · rw [if_pos hc] at h
        rcases List.mem_cons.mp h with rfl | h
        · exact List.not_mem_nil
        · exact ih h
      · rw [if_neg hc] at h
        rcases hrest : splitAt (CodePoint.char '\n') rest with _ | ⟨piece, pieces⟩
        · exact absurd hrest (splitAt_ne_nil _ rest)
        · simp only [hrest] at h ih
          rcases List.mem_cons.mp h with rfl | h
          · have hpiece := ih List.mem_cons_self
            simp [hpiece, Ne.symm hc]
          · exact ih (List.mem_cons_of_mem piece h)

/-- Before a line the text is that of the earlier ones, each with its line feed. -/
theorem joinLines_take {lines : List Text} {k : Nat} (h : k < lines.length) :
    (joinLines lines).take (lineStart lines k)
      = (lines.take k).flatMap fun line => line ++ [.char '\n'] := by
  induction lines generalizing k with
  | nil => exact absurd h (Nat.not_lt_zero k)
  | cons line rest ih =>
      cases k with
      | zero => rw [lineStart_zero, List.take_zero, List.take_zero, List.flatMap_nil]
      | succ k =>
          have hk : k < rest.length := by
            rw [List.length_cons] at h
            omega
          have hrest : rest ≠ [] := List.ne_nil_of_length_pos (by omega)
          have hplace : line.length + 1 + lineStart rest k
              = line.length + (lineStart rest k + 1) := by omega
          rw [lineStart_succ, hplace, joinLines_cons line hrest, List.take_length_add_append,
            List.take_succ_cons, ih hk, List.take_succ_cons, List.flatMap_cons, List.append_assoc,
            List.singleton_append]

theorem count_lineFeed_flatMap {lines : List Text} (h : ∀ line ∈ lines, .char '\n' ∉ line) :
    (lines.flatMap fun line => line ++ [.char '\n']).count (.char '\n') = lines.length := by
  induction lines with
  | nil => rfl
  | cons line rest ih =>
      obtain ⟨hline, hrest⟩ := List.forall_mem_cons.mp h
      rw [List.flatMap_cons, List.count_append, List.count_append, List.count_eq_zero_of_not_mem hline,
        ih hrest, List.length_cons]
      exact Nat.add_comm _ _

/-- What stands before a line are as many lines as come before it. -/
theorem firstLines_take (text : Text) {k : Nat} (h : k < (splitLines text).length) :
    FirstLines text k (text.take (lineStart (splitLines text) k)) := by
  have htext := joinLines_take h
  rw [joinLines_splitLines] at htext
  refine ⟨List.take_prefix _ _, ?_, ?_⟩
  · have hnone : ∀ line ∈ (splitLines text).take k, .char '\n' ∉ line := fun line hline =>
      lineFeed_not_mem_splitLines (List.mem_of_mem_take hline)
    rw [htext, count_lineFeed_flatMap hnone, List.length_take_of_le (Nat.le_of_lt h)]
  · rw [htext]
    rcases List.eq_nil_or_concat ((splitLines text).take k) with hnil | ⟨lines, line, hconcat⟩
    · rw [hnil]
      exact .inl rfl
    · rw [hconcat, List.concat_eq_append]
      exact .inr (by simp)

end Screencast.Text
