import Screencast.Cast.Line
import Screencast.Proofs.Cast.Reading
import Screencast.Proofs.Json.Legible
import Screencast.Proofs.Number.Finite

/-!
# The lines that hold records

`CastRecord.lineReader` says of every line what its reader makes of it.  A record is read exactly from the
lines that hold a value of the format (`StandsFor`); every other line is refused, unless its arrays and objects
lie too deep in one another or it has an integer that is too long; and the line that is made of a record gives
the record again, whatever its strings hold.
-/

namespace Screencast

/-- What is said of a line of a file is what is said of it by itself. -/
theorem LineError.message?_unknownKind (line : List Char) :
    (unknownKind (Text.ofChars line)).message?
      = some (Text.ofString (CastError.unknownKind line).message) := by
  have hshown : (if (Text.ofChars line).length < CastError.longestShown then Text.ofChars line
        else (Text.ofChars line).take CastError.longestShown ++ Text.ofString "...")
      = Text.ofChars (if line.length < CastError.longestShown then line
        else line.take CastError.longestShown ++ "...".toList) := by
    rw [Text.length_ofChars]
    split
    · rfl
    · rw [Text.ofChars_append, Text.ofChars, Text.ofChars, List.map_take]
      rfl
  unfold LineError.message? CastError.message
  dsimp only
  rw [hshown]
  generalize (if line.length < CastError.longestShown then line
    else line.take CastError.longestShown ++ "...".toList) = shown
  have hstring : Text.ofString (String.ofList shown) = Text.ofChars shown :=
    congrArg Text.ofChars String.toList_ofList
  simp only [toString, Text.ofString_append, hstring]

theorem LineError.message?_ofRead (error : CastError) :
    (ofRead (.record error)).message? = some (Text.ofString error.message) := by
  cases error with
  | unknownKind line => exact message?_unknownKind line
  | noRecord => rfl
  | part name kind expected => simp only [ofRead, message?]
  | version => rfl

namespace CastRecord

/-! ## What a value stands for -/

/-- A number, a truth value among them. -/
def isQuantity (value : Json) : Bool := value.quantity?.isSome

/-- The title that a member gives, if it may give one. -/
inductive IsTitle : Option Json → Option Text → Prop where
  | absent : IsTitle none none
  | null : IsTitle (some .null) none
  | string {title : Text} : IsTitle (some (.string title)) (some title)

/-- A record is what a value of its format stands for: an object of version two with a size and perhaps a
title, or a list of a time, a kind and data. -/
inductive StandsFor : Json → CastRecord → Prop where
  | header {members : List (Text × Json)} {width height : Json} {title : Option Text}
      (version : Json.find? "version" members = some (.int 2))
      (columns : Json.find? "width" members = some width) (wholeWidth : isWhole width = true)
      (lines : Json.find? "height" members = some height) (wholeHeight : isWhole height = true)
      (named : IsTitle (Json.find? "title" members) title) :
      StandsFor (.object members) (.header width height title)
  | event {time : Json} {kind data : Text} (quantity : isQuantity time = true) :
      StandsFor (.array [time, .string kind, .string data]) (.event time kind data)

theorem wholePart_eq_ok_iff {name : String} {value : Json} :
    wholePart name value = .ok () ↔ isWhole value = true := by
  unfold wholePart
  split
  · next h => exact iff_of_true rfl h
  · next h => exact iff_of_false nofun h

theorem textPart_eq_ok_iff {name : String} {value : Json} {text : Text} :
    textPart name value = .ok text ↔ value = .string text := by
  cases value <;> simp [textPart, Json.string?]

theorem ofEvent_eq_ok_iff {time kind data : Json} {record : CastRecord} :
    ofEvent time kind data = .ok record ↔ StandsFor (.array [time, kind, data]) record := by
  have hparts (hquantity : isQuantity time = true) : ofEvent time kind data =
      (textPart "event_type" kind).bind fun kind =>
        (textPart "event_data" data).bind fun data => .ok (.event time kind data) := by
    cases time <;> first | rfl | cases hquantity
  constructor
  · intro h
    have hquantity : isQuantity time = true := by
      cases time <;> first | rfl | cases h
    rw [hparts hquantity] at h
    obtain ⟨kindText, hkind, h⟩ := exists_of_bind_eq_ok h
    obtain ⟨dataText, hdata, h⟩ := exists_of_bind_eq_ok h
    cases h
    rw [textPart_eq_ok_iff.mp hkind, textPart_eq_ok_iff.mp hdata]
    exact .event hquantity
  · rintro ⟨⟩
    next hquantity => exact hparts hquantity

theorem eventOf_eq_ok_iff {items : List Json} {record : CastRecord} :
    eventOf (.array items) = .ok record ↔ StandsFor (.array items) record := by
  unfold eventOf
  simp only [Json.elements?]
  split
  · next heq => cases heq
  · next time kind data heq =>
    cases heq
    rw [← ofEvent_eq_ok_iff]
    exact mapError_eq_ok_iff
  · next other hother heq =>
    cases heq
    refine iff_of_false nofun fun h => ?_
    cases h
    exact hother _ _ _ rfl

/-- Of a header whose other parts are in order, the version is compared. -/
theorem ofHeader_int {width height title : Json} {name : Option Text} (hwidth : isWhole width = true)
    (hheight : isWhole height = true) (htitle : IsTitle (some title) name) (n : Int) :
    ofHeader (.int n) width height title
      = if n = version then .ok (.header width height name) else .error .version := by
  unfold ofHeader
  rw [wholePart_eq_ok_iff.mpr hwidth, wholePart_eq_ok_iff.mpr hheight]
  cases htitle <;> rfl

theorem ofHeader_eq_ok_iff {versionPart width height title : Json} {record : CastRecord} :
    ofHeader versionPart width height title = .ok record ↔
      versionPart = .int version ∧ isWhole width = true ∧ isWhole height = true ∧
        ∃ name, IsTitle (some title) name ∧ record = .header width height name := by
  constructor
  · intro hread
    obtain ⟨_, _, h⟩ := exists_of_bind_eq_ok hread
    obtain ⟨_, hwidth, h⟩ := exists_of_bind_eq_ok h
    obtain ⟨_, hheight, h⟩ := exists_of_bind_eq_ok h
    have hwhole := wholePart_eq_ok_iff.mp hwidth
    have hwholeHeight := wholePart_eq_ok_iff.mp hheight
    obtain ⟨name, htitle⟩ : ∃ name, IsTitle (some title) name := by
      cases title with
      | null => exact ⟨none, .null⟩
      | string text => exact ⟨some text, .string⟩
      | _ => cases h
    obtain ⟨n, rfl⟩ : ∃ n, versionPart = .int n := by
      cases versionPart with
      | int n => exact ⟨n, rfl⟩
      | _ => cases htitle <;> cases h
    rw [ofHeader_int hwhole hwholeHeight htitle] at hread
    split at hread
    · next hn =>
      cases hread
      exact ⟨congrArg Json.int hn, hwhole, hwholeHeight, name, htitle, rfl⟩
    · cases hread
  · rintro ⟨rfl, hwidth, hheight, name, htitle, rfl⟩
    rw [ofHeader_int hwidth hheight htitle, if_pos rfl]

/-- A title that is missing counts as null. -/
theorem isTitle_getD {member : Option Json} {name : Option Text} :
    IsTitle (some (member.getD .null)) name ↔ IsTitle member name := by
  cases member with
  | none =>
      constructor <;> rintro ⟨⟩
      · exact .absent
      · exact .null
  | some value => exact Iff.rfl

theorem getD_eq_iff {member : Option Json} {value : Json} (hvalue : value ≠ .null) :
    member.getD .null = value ↔ member = some value := by
  cases member with
  | none => exact iff_of_false (Ne.symm hvalue) nofun
  | some other => exact (Option.some_inj).symm

theorem headerOf_eq_ok_iff {members : List (Text × Json)} {record : CastRecord} :
    headerOf (.object members) = .ok record ↔ StandsFor (.object members) record := by
  have hheader : headerOf (.object members) = .ok record ↔
      ofHeader ((Json.find? "version" members).getD .null) ((Json.find? "width" members).getD .null)
        ((Json.find? "height" members).getD .null) ((Json.find? "title" members).getD .null)
        = .ok record :=
    mapError_eq_ok_iff
  rw [hheader, ofHeader_eq_ok_iff]
  have hwhole {member : Option Json} (h : isWhole (member.getD .null) = true) :
      member = some (member.getD .null) := by
    cases member with
    | none => cases h
    | some value => rfl
  constructor
  · rintro ⟨hversion, hwidth, hheight, name, htitle, rfl⟩
    have hfound := (getD_eq_iff (show Json.int version ≠ .null from nofun)).mp hversion
    exact .header hfound (hwhole hwidth) hwidth (hwhole hheight) hheight (isTitle_getD.mp htitle)
  · intro h
    cases h with
    | header hversion hcolumns hwidth hlines hheight htitle =>
        rw [hversion, hcolumns, hlines]
        exact ⟨rfl, hwidth, hheight, _, isTitle_getD.mpr htitle, rfl⟩

/-! ## Lines -/

variable {line : Text} {record : CastRecord}

/-- A record is read exactly from the lines that hold a value of its format. -/
theorem ofLine_eq_ok_iff :
    ofLine line = .ok record ↔ ∃ value, Json.readCodes line = .ok value ∧ StandsFor value record := by
  unfold ofLine
  rcases hread : Json.readCodes line with (⟨cause, row, column, offset⟩ | limit) | value
  · simp
  · simp
  · simp only [Except.ok.injEq, exists_eq_left']
    cases value with
    | object members => exact mapError_eq_ok_iff.trans headerOf_eq_ok_iff
    | array items => exact mapError_eq_ok_iff.trans eventOf_eq_ok_iff
    | _ => exact iff_of_false nofun nofun

theorem headerOf_eq_error {members : List (Text × Json)} {error : CastReadError}
    (h : headerOf (.object members) = .error error) : ∃ cause, error = .record cause := by
  obtain ⟨cause, -, rfl⟩ := mapError_eq_error_iff.mp h
  exact ⟨cause, rfl⟩

theorem eventOf_eq_error {items : List Json} {error : CastReadError}
    (h : eventOf (.array items) = .error error) : ∃ cause, error = .record cause := by
  unfold eventOf at h
  simp only [Json.elements?] at h
  split at h
  · next heq => cases heq
  · obtain ⟨cause, -, rfl⟩ := mapError_eq_error_iff.mp h
    exact ⟨cause, rfl⟩
  · cases h
    exact ⟨_, rfl⟩

/-- A line without a record is refused, unless it is beyond a limit of the reader. -/
theorem ofLine_eq_error {error : LineError} (h : ofLine line = .error error) :
    error.message?.isSome = true ∨
      (Json.HasLongInteger line ∧ ∃ count, error = .read (.malformed (.limit (.digits count)))) ∨
      (Json.TooDeep line ∧ error = .read (.malformed (.limit .depth))) := by
  unfold ofLine at h
  rcases Json.readCodes_cases line with ⟨value, hread, -⟩ | ⟨cause, row, column, offset, hread⟩ |
    ⟨hlong, count, hread⟩ | ⟨hdeep, hread⟩ <;> rw [hread] at h
  · refine .inl ?_
    cases value with
    | object members =>
        obtain ⟨error, hheader, rfl⟩ := mapError_eq_error_iff.mp h
        obtain ⟨cause, rfl⟩ := headerOf_eq_error hheader
        exact Option.isSome_iff_exists.mpr ⟨_, LineError.message?_ofRead cause⟩
    | array items =>
        obtain ⟨error, hevent, rfl⟩ := mapError_eq_error_iff.mp h
        obtain ⟨cause, rfl⟩ := eventOf_eq_error hevent
        exact Option.isSome_iff_exists.mpr ⟨_, LineError.message?_ofRead cause⟩
    | _ =>
        cases h
        rfl
  · cases h
    exact .inl rfl
  · cases h
    exact .inr (.inl ⟨hlong, count, rfl⟩)
  · cases h
    exact .inr (.inr ⟨hdeep, rfl⟩)

/-! ## The line of a record -/

theorem isScalar_of_isWhole {value : Json} (h : isWhole value = true) : value.IsScalar := by
  cases value <;> trivial

theorem isScalar_of_isQuantity {value : Json} (h : isQuantity value = true) : value.IsScalar := by
  cases value <;> trivial

/-- The data of a record is a value that the record stands for. -/
theorem standsFor_toJson {value : Json} (h : StandsFor value record) : StandsFor record.toJson record := by
  cases h with
  | @header members width height title _ _ hwidth _ hheight htitle =>
      generalize Json.find? "title" members = member at htitle
      cases htitle with
      | absent => exact .header rfl rfl hwidth rfl hheight .absent
      | null => exact .header rfl rfl hwidth rfl hheight .absent
      | string => exact .header rfl rfl hwidth rfl hheight .string
  | event hquantity => exact .event hquantity

theorem legible_toJson {value : Json} (h : StandsFor value record)
    (hlegible : Json.Legible Json.maxDepth value) : Json.Legible Json.maxDepth record.toJson := by
  have hversion {depth : Nat} : Json.Legible depth (.int version) := .int version_short
  cases h with
  | @header members width height title _ hcolumns hwidth hlines hheight htitle =>
      have hwidthLegible (depth : Nat) : Json.Legible depth width :=
        hlegible.of_member hcolumns (isScalar_of_isWhole hwidth) depth
      have hheightLegible (depth : Nat) : Json.Legible depth height :=
        hlegible.of_member hlines (isScalar_of_isWhole hheight) depth
      cases title with
      | none =>
          refine .object (show List.Nodup [("version" : Text), "width", "height"] by decide) ?_
          exact List.forall_mem_cons.mpr ⟨hversion, List.forall_mem_cons.mpr ⟨hwidthLegible _,
            List.forall_mem_singleton.mpr (hheightLegible _)⟩⟩
      | some title =>
          refine .object (show List.Nodup [("version" : Text), "width", "height", "title"] by decide) ?_
          exact List.forall_mem_cons.mpr ⟨hversion, List.forall_mem_cons.mpr ⟨hwidthLegible _,
            List.forall_mem_cons.mpr ⟨hheightLegible _, List.forall_mem_singleton.mpr .string⟩⟩⟩
  | event hquantity =>
      have htime (depth : Nat) := hlegible.of_item (.head _) (isScalar_of_isQuantity hquantity) depth
      exact .array (List.forall_mem_cons.mpr ⟨htime _, List.forall_mem_cons.mpr ⟨.string,
        List.forall_mem_singleton.mpr .string⟩⟩)

/-- The line of a record that was read gives the record again. -/
theorem ofLine_line (h : ofLine line = .ok record) : ofLine record.line = .ok record := by
  obtain ⟨value, hread, hstands⟩ := ofLine_eq_ok_iff.mp h
  have hlegible := Json.legible_of_readCodes hread
  exact ofLine_eq_ok_iff.mpr ⟨record.toJson, Json.readCodes_write (legible_toJson hstands hlegible),
    standsFor_toJson hstands⟩

/-! ## Lines of files -/

/-- On the line of a file, the two ways to read a record are one. -/
theorem ofLine_ofChars (line : List Char) :
    ofLine (Text.ofChars line) = (read line).mapError LineError.ofRead := by
  unfold ofLine read
  rw [Json.readCodes_ofChars]
  rcases Json.read line with (⟨cause, row, column, offset⟩ | limit) | value
  · rfl
  · rfl
  · cases value <;> rfl

/-! ## The line reader -/

/-- What is known of the reader of records at a line. -/
structure LineReader (line : Text) : Prop where
  /-- The line gives a record exactly if it holds a value of the format. -/
  accepts : ∀ record, ofLine line = .ok record ↔
    ∃ value, Json.readCodes line = .ok value ∧ StandsFor value record
  /-- Every other line is refused, unless it is beyond a limit. -/
  refuses : ¬Json.HasLongInteger line → ¬Json.TooDeep line →
    ∀ error, ofLine line = .error error → error.message?.isSome = true
  /-- The line that is made of a record gives the record again. -/
  settles : ∀ record, ofLine line = .ok record → ofLine record.line = .ok record
  /-- The lines of files are read in the same way. -/
  files : ∀ chars, line = Text.ofChars chars → ofLine line = (read chars).mapError LineError.ofRead

/-- The reader of records accepts the format, refuses all else, and settles what it accepts. -/
theorem lineReader (line : Text) : LineReader line where
  accepts record := ofLine_eq_ok_iff
  refuses hlong hdeep error herror := by
    rcases ofLine_eq_error herror with hmessage | ⟨hinteger, -⟩ | ⟨hnested, -⟩
    · exact hmessage
    · exact absurd hinteger hlong
    · exact absurd hnested hdeep
  settles record := ofLine_line
  files chars := by
    rintro rfl
    exact ofLine_ofChars chars

/-- Gaps, escapes and the way to write a number are gone from the line of a record, a surrogate is not. -/
example : (ofLine " [ 15e-1 , \"\\u006f\", \"\\ud800\" ] ").toOption.map CastRecord.line
    = some (("[1.5, \"o\", \"" : Text) ++ .surrogate 0 :: "\"]") := by decide +kernel

/-- An array in an array, two thousand times. -/
def nestedLine : Text := List.replicate 2000 (.char '[') ++ List.replicate 2000 (.char ']')

/-- A line of nothing but arrays is neither read nor refused, although it has no integers. -/
theorem ofLine_nested :
    ¬Json.HasLongInteger nestedLine ∧
      ofLine nestedLine = .error (.read (.malformed (.limit .depth))) ∧
      (LineError.read (.malformed (.limit .depth))).message? = none := by
  refine ⟨?_, ?_, rfl⟩
  · rintro ⟨before, negative, digits, rest, ⟨hsplit, -, hwhole, hlong, -⟩, -⟩
    obtain ⟨digit, hdigit⟩ := List.exists_mem_of_length_pos (Nat.zero_lt_of_lt hlong)
    have hmem : CodePoint.char digit ∈ nestedLine := by
      rw [← hsplit]
      refine List.mem_append_right _ (List.mem_append_left _ (List.mem_map_of_mem ?_))
      exact List.mem_append_right _ hdigit
    have hisDigit := hwhole.allDigits digit hdigit
    rcases List.mem_append.mp hmem with hopen | hclose
    · cases List.eq_of_mem_replicate hopen
      cases hisDigit
    · cases List.eq_of_mem_replicate hclose
      cases hisDigit
  · have hline : nestedLine = List.replicate (Json.maxDepth + 1) (.char '[') ++
        (List.replicate 1009 (.char '[') ++ List.replicate 2000 (.char ']')) := by
      rw [← List.append_assoc, ← List.replicate_add]
      rfl
    have hlength : nestedLine.length = 4000 := by
      rw [nestedLine, List.length_append, List.length_replicate, List.length_replicate]
    have hread : Json.readCodeValue (2 * nestedLine.length + 2) Json.maxDepth nestedLine
        = .error (.limit .depth) := by
      have hnested := Json.readCodeValue_nested (2 * nestedLine.length + 2) Json.maxDepth
        (by rw [hlength]; decide)
        (List.replicate 1009 (.char '[') ++ List.replicate 2000 (.char ']'))
      rwa [← hline] at hnested
    have hskip : Json.skipCodeGap nestedLine = nestedLine := rfl
    have hmark : nestedLine.head? ≠ some (.char (Char.ofNat 0xfeff)) :=
      show some (CodePoint.char '[') ≠ _ by decide
    unfold ofLine Json.readCodes
    rw [if_neg hmark, hskip, hread]

end CastRecord

end Screencast
