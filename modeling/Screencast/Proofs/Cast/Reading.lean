import Screencast.Proofs.Frame.Runs
import Screencast.Proofs.Json.RoundTrip
import Screencast.Proofs.Render.Showing

/-!
# Recordings read back

A record takes one line, from which it is read again (`CastRecord.read_line`).  The lines of a file are
found at the line feeds between them and nowhere else, so that a recording is read record by record:
`CastRecord.readAll_textOf`, and for what is rendered `Cast.render_readsBack`.
-/

namespace Screencast

/-! ## Lines -/

namespace Text

theorem normalizeLineEnds_of_not_mem {text : List Char} (h : '\r' ∉ text) :
    normalizeLineEnds text = text := by
  induction text with
  | nil => rfl
  | cons c rest ih =>
      rw [List.mem_cons, not_or] at h
      rw [normalizeLineEnds]
      · rw [ih h.2]
      · intro _ hc _
        exact h.1 hc.symm
      · intro hc
        exact h.1 hc.symm

/-- A line ends at its line feed. -/
theorem linesWithEnds_append {line : List Char} (h : '\n' ∉ line) (rest : List Char) :
    linesWithEnds (line ++ '\n' :: rest) = (line ++ ['\n']) :: linesWithEnds rest := by
  induction line with
  | nil => rfl
  | cons c line ih =>
      rw [List.mem_cons, not_or] at h
      rw [List.cons_append, linesWithEnds, if_neg (Ne.symm h.1), ih h.2]
      rfl

end Text

/-! ## Records -/

namespace CastRecord

/-- A record that reads back: its parts are of the kinds that its format asks for, its numbers have a
text, and its texts have no surrogates. -/
inductive Proper : CastRecord → Prop where
  | header {width height : Int} {title : Option Text} (columns : width.natAbs < Text.longNumbers)
      (lines : height.natAbs < Text.longNumbers) (encodes : ∀ text ∈ title, text.Encodes) :
      Proper (.header (.int width) (.int height) title)
  | event {time : Binary64} {kind data : Text} (form : time.InForm) (kindEncodes : kind.Encodes)
      (dataEncodes : data.Encodes) : Proper (.event (.real time) kind data)

/-- The version of the format is a short number. -/
theorem version_short : version.natAbs < Text.longNumbers := by decide +kernel

theorem Proper.legible {record : CastRecord} (h : record.Proper) :
    Json.Legible Json.maxDepth record.toJson := by
  cases h with
  | @header width height title columns lines encodes =>
      cases title with
      | none =>
          refine .object (show List.Nodup [("version" : Text), "width", "height"] by decide) ?_
          exact List.forall_mem_cons.mpr ⟨.int version_short, List.forall_mem_cons.mpr ⟨.int columns,
            List.forall_mem_singleton.mpr (.int lines)⟩⟩
      | some title =>
          refine .object (show List.Nodup [("version" : Text), "width", "height", "title"] by decide) ?_
          exact List.forall_mem_cons.mpr ⟨.int version_short, List.forall_mem_cons.mpr ⟨.int columns,
            List.forall_mem_cons.mpr ⟨.int lines, List.forall_mem_singleton.mpr .string⟩⟩⟩
  | event form kindEncodes dataEncodes =>
      exact .array (List.forall_mem_cons.mpr ⟨.real form, List.forall_mem_cons.mpr ⟨.string,
        List.forall_mem_singleton.mpr .string⟩⟩)

theorem encodes_line {record : CastRecord} (h : record.Proper) : record.line.Encodes := by
  cases h with
  | @header width height title columns lines encodes =>
      cases title with
      | none => simp [line, toJson, Json.write, Json.writeMembers, Json.encodes_writeString]
      | some title => exact (encodes_line_header width height title).mpr (encodes title rfl)
  | event form kindEncodes dataEncodes =>
      exact (encodes_line_event _ _ _).mpr ⟨kindEncodes, dataEncodes⟩

/-- The line of a record gives the record. -/
theorem read_line {record : CastRecord} (h : record.Proper) :
    read (Json.written record.toJson ++ ['\n']) = .ok record := by
  rw [read, Json.read_written h.legible (encodes_line h) rfl]
  cases h with
  | @header width height title columns lines encodes =>
      cases title with
      | none => rfl
      | some title => rfl
  | event form kindEncodes dataEncodes => rfl

/-- The characters of the file that holds records. -/
def fileOf (records : List CastRecord) : List Char :=
  records.flatMap fun record => Json.written record.toJson ++ ['\n']

theorem textOf_eq {records : List CastRecord} (h : ∀ record ∈ records, record.Proper) :
    Cast.textOf records = (fileOf records, none) := by
  induction records with
  | nil => rfl
  | cons record records ih =>
      obtain ⟨hrecord, hrecords⟩ := List.forall_mem_cons.mp h
      have hencode : record.line.encode = .ok (Json.written record.toJson) := by
        rw [Text.encode_eq_ok_iff]
        exact (Text.ofChars_chars (encodes_line hrecord)).symm
      rw [Cast.textOf, hencode, ih hrecords]
      simp only [fileOf, List.flatMap_cons, List.append_assoc, List.singleton_append]

/-- A record takes one line. -/
theorem noControl_line {record : CastRecord} (h : record.Proper) :
    Json.NoControl (Json.written record.toJson) :=
  (Json.readsBack_of_legible h.legible).noControl

/-- The line of a record is not blank. -/
theorem isEmpty_strip_line {record : CastRecord} (h : record.Proper) :
    (Text.strip (Json.written record.toJson ++ ['\n'])).isEmpty = false := by
  obtain ⟨first, more, hcons, hfirst⟩ := (Json.readsBack_of_legible h.legible).begins
  have hblank : Text.isBlank first = false := by
    have hblanks : ∀ range ∈ Text.blanks, range.2 ≤ 0x20 ∨ 0x7f ≤ range.1 := by decide
    rw [Bool.eq_false_iff]
    intro hblank
    obtain ⟨range, hrange, hlow, hhigh⟩ := Text.inRanges_iff.mp hblank
    have habove := hfirst.above
    have hbelow := hfirst.below
    have hends := hblanks range hrange
    omega
  have hwritten : Json.written record.toJson = first :: Text.chars more := congrArg Text.chars hcons
  rw [Text.strip, Text.isEmpty_trimWhile, hwritten, List.cons_append, List.all_cons, hblank,
    Bool.false_and]

theorem readLines_fileOf {records : List CastRecord} (h : ∀ record ∈ records, record.Proper) :
    readLines (Text.linesWithEnds (fileOf records)) = (records, none) := by
  induction records with
  | nil => rfl
  | cons record records ih =>
      obtain ⟨hrecord, hrecords⟩ := List.forall_mem_cons.mp h
      have hline : '\n' ∉ Json.written record.toJson := fun hmem =>
        absurd (noControl_line hrecord '\n' hmem) (by decide)
      rw [fileOf, List.flatMap_cons, List.append_assoc, List.singleton_append,
        Text.linesWithEnds_append hline, readLines, isEmpty_strip_line hrecord, if_neg Bool.false_ne_true,
        read_line hrecord]
      rw [← fileOf, ih hrecords]

/-- A file of records is read as the records, in their order. -/
theorem readAll_fileOf {records : List CastRecord} (h : ∀ record ∈ records, record.Proper) :
    readAll (Text.normalizeLineEnds (fileOf records)) = (records, none) := by
  have hreturn : '\r' ∉ fileOf records := by
    intro hmem
    obtain ⟨record, hrecord, hline⟩ := List.mem_flatMap.mp hmem
    rcases List.mem_append.mp hline with hwritten | hend
    · exact absurd (noControl_line (h record hrecord) '\r' hwritten) (by decide)
    · exact absurd (List.mem_singleton.mp hend) (by decide)
  rw [Text.normalizeLineEnds_of_not_mem hreturn]
  exact readLines_fileOf h

end CastRecord

/-! ## Recordings -/

namespace Cast

variable {config : Config} {title : Text}

theorem proper_of_mem_eventsFrom {index : Nat} {runs : List Run}
    (hlines : ∀ run ∈ runs, ∀ line ∈ run.frame, Text.Encodes line) {record : CastRecord}
    (h : record ∈ eventsFrom config index runs) : record.Proper := by
  induction runs generalizing index with
  | nil => cases h
  | cons run rest ih =>
      obtain ⟨hrun, hrest⟩ := List.forall_mem_cons.mp hlines
      rw [eventsFrom, List.mem_cons] at h
      rcases h with rfl | hlater
      · exact .event (Binary64.inForm_roundPlaces _ _) (Text.encodes_ofString _)
          ((encodes_dataOf run.frame).mpr hrun)
      · exact ih hrest hlater

/-- A recording reads back: what is rendered is a file from which the records of the frames are read, all
of them and in their order. -/
theorem render_readsBack (tools : Tools) (htitle : config.title = .string title)
    (hcommand : config.castCommand.isSet = false) (hcolumns : config.columns < Text.longNumbers)
    (hlineCount : config.lineCount < Text.longNumbers) (htitleEncodes : title.Encodes)
    {frames : List Frame} (hlines : ∀ frame ∈ frames, ∀ line ∈ frame, Text.Encodes line)
    {path : List Char} {shop : Workshop} (hpath : shop.disk.Writable path) :
    ∃ written made text, render tools config path frames shop = (written, .ok path) ∧
      records config frames = .ok made ∧ written.disk.readText path = .ok text ∧
      CastRecord.readAll text = (made, none) := by
  have hruns : ∀ run ∈ Frame.runs frames, ∀ line ∈ run.frame, Text.Encodes line := fun run hrun =>
    hlines run.frame (Frame.frame_mem_of_mem_runs hrun)
  have hproper : ∀ record ∈ CastRecord.header (.int config.columns) (.int config.lineCount) (some title) ::
      eventsFrom config 0 (Frame.runs frames), record.Proper := by
    rw [List.forall_mem_cons]
    refine ⟨.header hcolumns hlineCount ?_, fun record => proper_of_mem_eventsFrom hruns⟩
    rintro text ⟨⟩
    exact htitleEncodes
  have hmade := records_eq htitle frames
  rcases hwritten : write config path frames shop with ⟨written, failure | done⟩
  · have hfails := ((checks_write htitle frames hpath).of_error (congrArg Prod.snd hwritten)).1
    exact absurd ⟨hcolumns, hlineCount, htitleEncodes, hruns⟩ hfails
  · obtain ⟨made, hrecords, -, hread⟩ := write_eq_ok hwritten
    obtain rfl := Except.ok.inj (hmade.symm.trans hrecords)
    rw [CastRecord.textOf_eq hproper] at hread
    refine ⟨written, _, _, ?_, hmade, ?_, CastRecord.readAll_fileOf hproper⟩
    · simp only [render, hwritten, hcommand, Bool.false_eq_true, if_false]
    · rw [Disk.readText, hread]
      rfl

/-- Frames with quotes, a backslash, an escape character and line ends of several kinds. -/
def strangeFrames : List Frame := [["\"\\"], ["\x1b\x0d\x85\u2028", ""]]

theorem render_readsBack_strange :
    ∃ written made text,
      render willingTools smallConfig "a.cast".toList strangeFrames
        (.ofDisk ⟨∅, [], 0⟩) = (written, .ok "a.cast".toList) ∧
      records smallConfig strangeFrames = .ok made ∧
      written.disk.readText "a.cast".toList = .ok text ∧
      CastRecord.readAll text = (made, none) := by
  have hcolumns : smallConfig.columns < Text.longNumbers := by decide +kernel
  have hlineCount : smallConfig.lineCount < Text.longNumbers := by decide +kernel
  have hlines : ∀ frame ∈ strangeFrames, ∀ line ∈ frame, Text.Encodes line := by
    unfold Text.Encodes
    decide
  have hpath : (⟨∅, [], 0⟩ : Disk).Writable "a.cast".toList := ⟨_, _, rfl, rfl⟩
  exact render_readsBack _ rfl rfl hcolumns hlineCount (Text.encodes_ofString "small") hlines hpath

/-- A title that is half of a pair. -/
def halfTitle : Config := { smallConfig with title := .string [.surrogate 0] }

/-- So many lines that their number is not written. -/
def endlessLines : Config := { smallConfig with lineCount := Text.longNumbers }

/-- None of the conditions can be left out: a title has to be encoded, a number to be written, and a file to
be made. -/
theorem render_conditions_needed :
    (halfTitle.title = .string [.surrogate 0] ∧ halfTitle.castCommand = .string [] ∧
      eventsFrom halfTitle 0 (Frame.runs [["a"]])
        = [.event (.real (.zero false)) "o" (dataOf ["a"])] ∧
      (⟨∅, [], 0⟩ : Disk).Writable "a.cast".toList ∧
      ¬∃ written, render willingTools halfTitle "a.cast".toList [["a"]]
        (.ofDisk ⟨∅, [], 0⟩) = (written, .ok "a.cast".toList)) ∧
    (¬∃ written, render willingTools endlessLines "a.cast".toList [["a"]]
      (.ofDisk ⟨∅, [], 0⟩) = (written, .ok "a.cast".toList)) ∧
    (¬∃ written, render willingTools smallConfig [] [["a"]]
      (.ofDisk ⟨∅, [], 0⟩) = (written, .ok [])) := by
  have hfails {rendered : Rendering} {file : List Char} (h : rendered.2.toOption.isSome = false) :
      ¬∃ written, rendered = (written, .ok file) := by
    rintro ⟨written, rfl⟩
    cases h
  refine ⟨⟨rfl, rfl, ?_, ⟨_, _, rfl, rfl⟩, hfails ?_⟩, hfails ?_, hfails ?_⟩
  · have htime : timeOf halfTitle 0 = .zero false := by decide +kernel
    rw [show Frame.runs [["a"]] = [⟨["a"], 1⟩] by decide, eventsFrom, htime]
    rfl
  · decide +kernel
  · decide +kernel
  · decide +kernel

end Cast

end Screencast
