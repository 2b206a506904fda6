import Screencast.Program
import Screencast.Proofs.Text.Cells
import Screencast.Proofs.Text.Encodes
import Screencast.Proofs.Text.Splitting

/-!
# The box as a rectangle

All rows of the box are to be as wide as its lower border.  A row is, unless its line ends in a joiner,
which hides the first blank that fills it up.  The upper border is only if the title takes as many cells
as it has code points, since those are what the rest of the border is measured by: `framed_of_fits`.
-/

namespace Screencast.Box

open Text

variable {box : Box} {content line : Text} {titleWidth lineWidth : Nat}

/-! ## Texts between two bricks -/

/-- Blanks and the characters that borders are made of. -/
def bricks : Text := " │─┌┐└┘"

theorem isCell_of_mem_bricks {c : CodePoint} (h : c ∈ bricks) : IsCell c where
  cellCount := (by decide +kernel : ∀ c ∈ bricks, cellCount? c = some 1) c h
  notJoiner := (by decide +kernel : ∀ c ∈ bricks, c ≠ zeroWidthJoiner) c h
  notSelector := (by decide +kernel : ∀ c ∈ bricks, c ≠ emojiSelector) c h
  notWidened := (by decide +kernel : ∀ c ∈ bricks, inRanges widenedAsEmoji c.toNat = false) c h

/-- A text behind a brick, filled up with bricks and closed with another one.  A joiner at the end of the
text hides one of those behind it. -/
theorem displayWidth_enclosed {opening filling closing : CodePoint} {text : Text} {width : Nat}
    (hopening : opening ∈ bricks) (hfilling : filling ∈ bricks) (hclosing : closing ∈ bricks)
    (h : displayWidth text = some width) (count : Nat) :
    displayWidth (opening :: (text ++ (List.replicate count filling ++ [closing])))
      = some (width + count + if text.endsInJoiner then 1 else 2) := by
  have hcells : ∀ c ∈ List.replicate count filling ++ [closing], IsCell c := by
    intro c hc
    rcases List.mem_append.mp hc with hc | hc
    · exact List.eq_of_mem_replicate hc ▸ isCell_of_mem_bricks hfilling
    · exact List.mem_singleton.mp hc ▸ isCell_of_mem_bricks hclosing
  have hlength : (List.replicate count filling ++ [closing]).length = count + 1 := by
    rw [List.length_append, List.length_replicate, List.length_singleton]
  rw [displayWidth_cons (isCell_of_mem_bricks hopening), displayWidth_append hcells, seenBehind,
    hlength, h, Option.map_some, Option.map_some]
  congr 1
  split <;> omega

/-! ## The rows -/

theorem displayWidth_bottom (box : Box) : displayWidth box.bottom = some (box.columns.toNat + 2) := by
  have hbottom : box.bottom
      = .char '└' :: ([] ++ (List.replicate box.columns.toNat (.char '─') ++ [.char '┘'])) := rfl
  rw [hbottom, displayWidth_enclosed (by decide) (by decide) (by decide) rfl, Nat.zero_add]
  rfl

/-- The blank behind the title takes what a joiner at its end would hide of the border. -/
theorem endsInJoiner_titleText (box : Box) : box.titleText.endsInJoiner = false := by
  rw [titleText]
  split
  · exact endsInJoiner_concat (by decide) _
  · rfl

/-- The upper border has the cells of the title, but as many dashes as its code points leave. -/
theorem displayWidth_top (h : displayWidth box.titleText = some titleWidth) :
    displayWidth box.top
      = some (titleWidth + (box.columns - box.titleText.length).toNat + 2) := by
  have htop : box.top = .char '┌' :: (box.titleText ++
      (List.replicate (box.columns - box.titleText.length).toNat (.char '─') ++ [.char '┐'])) := by
    rw [← List.append_assoc]
    rfl
  rw [htop, displayWidth_enclosed (by decide) (by decide) (by decide) h, endsInJoiner_titleText]
  rfl

/-- A line is filled up by its own cells, of which the border takes none. -/
theorem displayWidth_row (h : displayWidth line = some lineWidth) (hfits : lineWidth ≤ box.columns) :
    displayWidth (box.row line)
      = some (box.columns.toNat + if line.endsInJoiner then 1 else 2) := by
  have hwidth : width line = lineWidth := by rw [width, h, Option.getD_some]
  have hrow : box.row line = .char '│' ::
      (line ++ (List.replicate (box.columns - lineWidth).toNat (.char ' ') ++ [.char '│'])) := by
    rw [← List.append_assoc, ← hwidth]
    rfl
  have hcolumns : lineWidth + (box.columns - lineWidth).toNat = box.columns.toNat := by omega
  rw [hrow, displayWidth_enclosed (by decide) (by decide) (by decide) h, hcolumns]

/-! ## What is written -/

theorem forall_mem_rows {p : Text → Prop} : (∀ row ∈ box.rows content, p row) ↔
    p box.top ∧ (∀ line ∈ splitLines content, p (box.row line)) ∧ p box.bottom := by
  simp [rows, or_imp, forall_and]

theorem check_eq_ok_iff (box : Box) : box.check = .ok () ↔ box.columns ≤ mostCharacters := by
  have hedge := checkSize_eq_ok_iff (box.columns - box.titleText.length).toNat
  have hcolumns := checkSize_eq_ok_iff box.columns.toNat
  rw [check]
  cases hfirst : checkSize (box.columns - box.titleText.length).toNat with
  | error fault =>
      rw [hfirst] at hedge
      refine iff_of_false nofun fun hle => ?_
      cases hedge.mpr (by omega)
  | ok _ =>
      exact hcolumns.trans Int.toNat_le

theorem encodes_draw (box : Box) (content : Text) :
    (box.draw content).Encodes ↔ box.titleText.Encodes ∧ content.Encodes := by
  have htop : box.top.Encodes ↔ box.titleText.Encodes := by simp [top, edge]
  have hbottom : box.bottom.Encodes := by simp [bottom, edge]
  have hrow (line : Text) : (box.row line).Encodes ↔ line.Encodes := by simp [row, pad]
  rw [draw, encodes_append, encodes_flatMap]
  simp only [encodes_append, encodes_ofString, and_true, forall_mem_rows, htop, hrow, hbottom,
    encodes_splitLines]
  exact and_iff_right (encodes_ofString _)

theorem previewOf_eq_none_iff (box : Box) (content : Text) :
    Execution.previewOf (some box) (splitLines content) = none ↔
      box.columns ≤ mostCharacters ∧ box.titleText.Encodes ∧ content.Encodes := by
  rw [← check_eq_ok_iff, ← encodes_draw, Encodes, ← encode_isOk_iff, Execution.previewOf]
  cases box.check with
  | error fault => exact iff_of_false nofun fun h => nomatch h.1
  | ok _ =>
      simp only [joinLines_splitLines]
      cases (box.draw content).encode with
      | error fault => exact iff_of_false nofun fun h => nomatch h.2
      | ok characters => exact iff_of_true rfl ⟨trivial, characters, rfl⟩

/-! ## The whole box -/

/-- The title and every line have a width, and the box is wide enough for them. -/
structure Fits (box : Box) (content : Text) (titleWidth : Nat) : Prop where
  title : displayWidth box.titleText = some titleWidth
  title_le : titleWidth ≤ box.columns
  lines : ∀ line ∈ splitLines content,
    ∃ lineWidth : Nat, displayWidth line = some lineWidth ∧ lineWidth ≤ box.columns

theorem fits_iff : Fits box content titleWidth ↔
    displayWidth box.titleText = some titleWidth ∧ (titleWidth : Int) ≤ box.columns ∧
      ∀ line ∈ splitLines content,
        (displayWidth line).any (fun lineWidth => decide ((lineWidth : Int) ≤ box.columns)) = true := by
  have hline (line : Text) :
      (displayWidth line).any (fun lineWidth => decide ((lineWidth : Int) ≤ box.columns)) = true ↔
        ∃ lineWidth : Nat, displayWidth line = some lineWidth ∧ lineWidth ≤ box.columns := by
    cases displayWidth line <;> simp
  simp only [hline]
  exact ⟨fun h => ⟨h.title, h.title_le, h.lines⟩, fun h => ⟨h.1, h.2.1, h.2.2⟩⟩

instance : Decidable (Fits box content titleWidth) := decidable_of_iff _ fits_iff.symm

/-- What is written of a box, and when it is a rectangle. -/
structure Framed (box : Box) (content : Text) (titleWidth : Nat) : Prop where
  /-- It is written if it has a length that texts can have and consists of characters. -/
  written : Execution.previewOf (some box) (splitLines content) = none ↔
    box.columns ≤ mostCharacters ∧ box.titleText.Encodes ∧ content.Encodes
  /-- Behind the move to the corner are the rows, each with its line end. -/
  data : ∃ data, box.draw content = home ++ data ∧ splitOn "\r\n" data = box.rows content ++ [[]]
  count : (box.rows content).length = (splitLines content).length + 2
  bottom : displayWidth box.bottom = some (box.columns.toNat + 2)
  top : displayWidth box.top = some (titleWidth + (box.columns - box.titleText.length).toNat + 2)
  row : ∀ line ∈ splitLines content,
    displayWidth (box.row line) = some (box.columns.toNat + if line.endsInJoiner then 1 else 2)
  rectangle : (∀ row ∈ box.rows content, displayWidth row = some (box.columns.toNat + 2)) ↔
    (titleWidth : Int) = min (box.titleText.length : Int) box.columns ∧
      ∀ line ∈ splitLines content, line.endsInJoiner = false

namespace Fits

theorem rowOf (h : Fits box content titleWidth) (hline : line ∈ splitLines content) :
    displayWidth (box.row line)
      = some (box.columns.toNat + if line.endsInJoiner then 1 else 2) := by
  obtain ⟨lineWidth, hwidth, hfits⟩ := h.lines line hline
  exact displayWidth_row hwidth hfits

theorem exists_displayWidth (h : Fits box content titleWidth) :
    ∀ row ∈ box.rows content, ∃ width, displayWidth row = some width :=
  forall_mem_rows.mpr ⟨⟨_, displayWidth_top h.title⟩, fun _ hline => ⟨_, h.rowOf hline⟩,
    ⟨_, displayWidth_bottom box⟩⟩

/-- A row has a width, so no line end is in it. -/
theorem splitOn_rows (h : Fits box content titleWidth) :
    splitOn "\r\n" ((box.rows content).flatMap fun row => (row ++ "\r\n" : Text))
      = box.rows content ++ [[]] := by
  refine splitOn_flatMap (by decide) fun row hrow hinfix => ?_
  obtain ⟨width, hwidth⟩ := h.exists_displayWidth row hrow
  have hnone : displayWidth row = none :=
    widthAfter_eq_none_of_controls (by decide +kernel) (by decide +kernel) none hinfix
  rw [hnone] at hwidth
  cases hwidth

/-- The lower border is as wide as it should be, so the title and the lines decide. -/
theorem rectangle_iff (h : Fits box content titleWidth) :
    (∀ row ∈ box.rows content, displayWidth row = some (box.columns.toNat + 2)) ↔
      (titleWidth : Int) = min (box.titleText.length : Int) box.columns ∧
        ∀ line ∈ splitLines content, line.endsInJoiner = false := by
  have htop : displayWidth box.top = some (box.columns.toNat + 2) ↔
      (titleWidth : Int) = min (box.titleText.length : Int) box.columns := by
    have hfits := h.title_le
    rw [displayWidth_top h.title, Option.some_inj]
    omega
  have hrow : ∀ line ∈ splitLines content,
      displayWidth (box.row line) = some (box.columns.toNat + 2) ↔ line.endsInJoiner = false := by
    intro line hline
    rw [h.rowOf hline, Option.some_inj]
    cases line.endsInJoiner <;> simp
  rw [forall_mem_rows, htop, forall₂_congr hrow]
  exact and_congr_right fun _ => and_iff_left (displayWidth_bottom box)

end Fits

theorem framed_of_fits (h : Fits box content titleWidth) : Framed box content titleWidth where
  written := previewOf_eq_none_iff box content
  data := ⟨_, rfl, h.splitOn_rows⟩
  count := by
    rw [rows, List.length_append, List.length_cons, List.length_map, List.length_singleton]
  bottom := displayWidth_bottom box
  top := displayWidth_top h.title
  row := fun _ hline => h.rowOf hline
  rectangle := h.rectangle_iff

theorem framed_of_fits_demo : Fits ⟨6, .string "demo"⟩ "ab\ncdef" 6 ∧
    Framed ⟨6, .string "demo"⟩ "ab\ncdef" 6 :=
  ⟨by decide +kernel, framed_of_fits (by decide +kernel)⟩

example : draw ⟨6, .string "demo"⟩ "ab\ncdef"
    = home ++ ("┌ demo ┐\r\n│ab    │\r\n│cdef  │\r\n└──────┘\r\n" : Text) := by
  decide +kernel

/-- A title of two wide characters makes the upper border two cells too wide, and a joiner at the end of
a line makes its row one cell too narrow. -/
theorem uneven_rows :
    (Fits ⟨10, .string "日本"⟩ "a" 6 ∧
      ¬∀ row ∈ rows ⟨10, .string "日本"⟩ "a", displayWidth row = some 12) ∧
    Fits ⟨3, .string ""⟩ "a\u200d" 0 ∧
      ¬∀ row ∈ rows ⟨3, .string ""⟩ "a\u200d", displayWidth row = some 5 := by
  decide +kernel

end Screencast.Box
