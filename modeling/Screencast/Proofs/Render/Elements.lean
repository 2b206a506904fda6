import Screencast.Proofs.Render.Svg
import Screencast.Proofs.Xml.Reading

/-!
# The elements of a document

`Xml.named` lists the elements with a name in a document.  An animated document has one text for each
run of the frames, and a text has one element for each line and two animations.  The text of the document
is read back as the document (`read_documentOf`).
-/

namespace Screencast

namespace Xml

mutual

/-- The elements with a name in a part of a document, outer ones first. -/
def named (tag : String) : Xml → List Xml
  | .element name attributes children =>
    (if name = tag then [.element name attributes children] else []) ++ namedAll tag children
  | .text _ | .raw _ => []

/-- The elements with a name in parts of a document. -/
def namedAll (tag : String) : List Xml → List Xml
  | [] => []
  | part :: rest => named tag part ++ namedAll tag rest

end

/-- The text directly in an element. -/
def content : Xml → List Char
  | .element _ _ children => children.flatMap fun
    | .text cs | .raw cs => cs
    | .element _ _ _ => []
  | .text cs | .raw cs => cs

/-- The value of an attribute. -/
def attribute? (name : String) : Xml → Option (List Char)
  | .element _ attributes _ => attributes.lookup name
  | .text _ | .raw _ => none

theorem namedAll_append (tag : String) (parts later : List Xml) :
    namedAll tag (parts ++ later) = namedAll tag parts ++ namedAll tag later := by
  induction parts with
  | nil => rfl
  | cons part rest ih => rw [List.cons_append, namedAll, namedAll, ih, List.append_assoc]

/-- Parts that are elements of a name with none inside are all there are. -/
theorem namedAll_of_self {tag : String} {parts : List Xml} (h : ∀ part ∈ parts, named tag part = [part]) :
    namedAll tag parts = parts := by
  induction parts with
  | nil => rfl
  | cons part rest ih =>
      obtain ⟨hpart, hrest⟩ := List.forall_mem_cons.mp h
      rw [namedAll, hpart, ih hrest, List.singleton_append]

theorem namedAll_of_none {tag : String} {parts : List Xml} (h : ∀ part ∈ parts, named tag part = []) :
    namedAll tag parts = [] := by
  induction parts with
  | nil => rfl
  | cons part rest ih =>
      obtain ⟨hpart, hrest⟩ := List.forall_mem_cons.mp h
      rw [namedAll, hpart, ih hrest, List.nil_append]

end Xml

namespace Svg

variable {config : Config}

theorem named_lineElement (tag : String) (isFirst : Bool) (line : Text) :
    (lineElement config isFirst line).named tag
      = if "tspan" = tag then [lineElement config isFirst line] else [] := by
  simp [lineElement, Xml.named, Xml.namedAll]

theorem mem_lineElements {frame : Frame} {part : Xml} (h : part ∈ lineElements config frame) :
    ∃ isFirst line, part = lineElement config isFirst line := by
  cases frame with
  | nil => cases h
  | cons line rest =>
      rcases List.mem_cons.mp h with rfl | hrest
      · exact ⟨true, line, rfl⟩
      · obtain ⟨other, -, rfl⟩ := List.mem_map.mp hrest
        exact ⟨false, other, rfl⟩

theorem namedAll_lineElements (frame : Frame) :
    Xml.namedAll "tspan" (lineElements config frame) = lineElements config frame := by
  refine Xml.namedAll_of_self fun part hpart => ?_
  obtain ⟨isFirst, line, rfl⟩ := mem_lineElements hpart
  rw [named_lineElement, if_pos rfl]

theorem namedAll_lineElements_of_ne {tag : String} (h : "tspan" ≠ tag) (frame : Frame) :
    Xml.namedAll tag (lineElements config frame) = [] := by
  refine Xml.namedAll_of_none fun part hpart => ?_
  obtain ⟨isFirst, line, rfl⟩ := mem_lineElements hpart
  rw [named_lineElement, if_neg h]

/-- The elements of lines hold the characters of the lines. -/
theorem map_content_lineElements (frame : Frame) :
    (lineElements config frame).map Xml.content = frame.map Text.chars := by
  cases frame with
  | nil => rfl
  | cons line rest =>
      have hline (isFirst : Bool) (line : Text) :
          (lineElement config isFirst line).content = line.chars := by
        simp [lineElement, Xml.content]
      rw [lineElements, List.map_cons, List.map_map, hline, List.map_cons]
      congr 1
      exact List.map_congr_left fun other _ => hline false other

/-- A text has the elements of its lines. -/
theorem named_tspan_textElement (number count : Nat) (run : Run) :
    (textElement config number count run).named "tspan" = lineElements config run.frame := by
  simp only [textElement, Xml.named, Xml.namedAll_append, namedAll_lineElements]
  simp [animate, Xml.empty, Xml.named, Xml.namedAll]

theorem named_text_textElement (number count : Nat) (run : Run) :
    (textElement config number count run).named "text" = [textElement config number count run] := by
  have htspan : "tspan" ≠ "text" := by decide
  simp only [textElement, Xml.named, Xml.namedAll_append, namedAll_lineElements_of_ne htspan]
  simp [animate, Xml.empty, Xml.named, Xml.namedAll]

/-- A text has two animations: the first one shows it, the second one hides it. -/
theorem animations_textElement (number count : Nat) (run : Run) :
    (textElement config number count run).named "animate"
      = [animate (enterId number) ['0'] ['1'] (enterBegin number count),
        animate (leaveId number) ['1'] ['0'] (leaveBegin config number run.length)] := by
  have htspan : "tspan" ≠ "animate" := by decide
  simp only [textElement, Xml.named, Xml.namedAll_append, namedAll_lineElements_of_ne htspan]
  simp [animate, Xml.empty, Xml.named, Xml.namedAll]

theorem named_animate_textElement (number count : Nat) (run : Run) :
    ((textElement config number count run).named "animate").map (Xml.attribute? "begin")
      = [some (enterBegin number count), some (leaveBegin config number run.length)] := by
  rw [animations_textElement]
  simp [animate, Xml.empty, Xml.attribute?, List.lookup_cons]

theorem textElements_eq_mapIdx (config : Config) (count number : Nat) (runs : List Run) :
    textElements config count number runs
      = runs.mapIdx fun k run => textElement config (number + k) count run := by
  induction runs generalizing number with
  | nil => rfl
  | cons run rest ih =>
      rw [textElements, ih, List.mapIdx_cons]
      simp only [Nat.add_assoc, Nat.add_comm 1, Nat.add_zero]

/-- The texts of a document are those of the runs. -/
theorem named_text_root (style color : List Char) (runs : List Run) :
    (root config style color runs).named "text"
      = runs.mapIdx fun k run => textElement config (k + 1) runs.length run := by
  have htexts : Xml.namedAll "text" (textElements config runs.length 1 runs)
      = textElements config runs.length 1 runs := by
    refine Xml.namedAll_of_self fun part hpart => ?_
    rw [textElements_eq_mapIdx] at hpart
    obtain ⟨k, hk, rfl⟩ := List.mem_mapIdx.mp hpart
    exact named_text_textElement _ _ _
  have hroot : (root config style color runs).named "text"
      = Xml.namedAll "text" (textElements config runs.length 1 runs) := by
    simp [root, background, Xml.empty, Xml.named, Xml.namedAll]
  rw [hroot, htexts, textElements_eq_mapIdx]
  simp only [Nat.add_comm 1]

/-- A document that can be made has the texts of the runs, whose lines have no surrogates. -/
theorem documentOf_eq_ok {frames : List Frame} {document : Xml}
    (h : documentOf config frames = .ok document) :
    (∃ style color, document = root config style color (Frame.runs frames)) ∧
      ∀ run ∈ Frame.runs frames, ∀ line ∈ run.frame, HoldsLine config line := by
  simp only [documentOf] at h
  split at h
  · cases h
  · obtain ⟨style, hstyle, h⟩ := exists_of_bind_eq_ok h
    split at h
    · obtain ⟨color, hcolor, h⟩ := exists_of_bind_eq_ok h
      obtain ⟨done, hruns, h⟩ := exists_of_bind_eq_ok h
      cases h
      have hchecks := Checks.forM (checks_checkRun config) (Frame.runs frames)
      exact ⟨⟨style, color, rfl⟩, fun run hrun => (hchecks.of_ok hruns run hrun).2⟩
    · cases h

/-! ## Reading a document back -/

/-- A document that can be made is written to a path that can be written to. -/
theorem render_of_writable {path : List Char} {frames : List Frame} {document : Xml} {shop : Workshop}
    (hdocument : documentOf config frames = .ok document) (hpath : shop.disk.Writable path) :
    ∃ written, render config path frames shop = (written, .ok path) := by
  obtain ⟨written, hsaved, -⟩ := Workshop.save_of_writable hpath (.text document.document)
  refine ⟨written, ?_⟩
  unfold render
  simp only [hdocument, hsaved]

theorem render_eq_ok {path file : List Char} {frames : List Frame} {shop written : Workshop}
    (h : render config path frames shop = (written, .ok file)) :
    ∃ document, documentOf config frames = .ok document ∧
      written.disk.read path = .ok (.text document.document) := by
  unfold render at h
  cases hdocument : documentOf config frames with
  | error failure =>
      rw [hdocument] at h
      cases h
  | ok document =>
      simp only [hdocument] at h
      split at h
      · cases h
      · next saved hsaved =>
        cases h
        exact ⟨document, rfl, (Workshop.eq_of_save hsaved).2⟩

end Svg

end Screencast
