import Screencast.Proofs.Frame.Runs
import Screencast.Proofs.Number.Fixed
import Screencast.Proofs.Render.Cast
import Screencast.Proofs.Render.Elements
import Screencast.Proofs.Render.Gif
import Screencast.Proofs.Text.Splitting

/-!
# One animation in three formats

Pictures, documents and recordings are made by three renderers that share nothing but the runs of the
frames.  The lemmas of this module say what each of them leaves when it succeeds, run by run;
`renderings_showSame` puts them together.
-/

namespace Screencast

/-- How long a run is shown: so many frames, in milliseconds. -/
def Config.timeShown (config : Config) (length : Nat) : Binary64 :=
  (Binary64.ofInt length).mul config.frameDuration

/-! ## Pictures -/

namespace Gif

variable {config : Config}

theorem labelsFrom_eq_mapIdx (config : Config) (index : Nat) (frame : Frame) :
    labelsFrom config index frame = frame.mapIdx fun j line =>
      ⟨config.paddingX, config.paddingY + (index + j) * config.lineHeight, line,
        config.foreground⟩ := by
  induction frame generalizing index with
  | nil => rfl
  | cons line rest ih =>
      rw [labelsFrom, ih, List.mapIdx_cons]
      simp only [Nat.add_assoc, Nat.add_comm 1, Nat.add_zero]

/-- The time of a run in whole milliseconds. -/
theorem round_of_durationOf {run : Run} {duration : Int} (h : durationOf config run = .ok duration) :
    (config.timeShown run.length).round = .ok duration := by
  unfold durationOf at h
  simp only [Number.toReal, bind, Except.bind] at h
  split at h
  · cases h
  · next x hreal =>
    split at hreal
    · cases hreal
    · cases hreal
      exact h

/-- What is left by a renderer of pictures that succeeds: the pictures of the runs, in order, with their
durations, in the file and among the strokes. -/
theorem render_eq_ok {tools : Tools} {path file : List Char} {frames : List Frame}
    {shop drawn : Workshop} (h : render tools config path frames shop = (drawn, .ok file)) :
    ∃ durations, (runsOf frames).mapM (durationOf config) = .ok durations ∧
      drawn.disk.read path = .ok (.animation (animationOf config frames durations)) ∧
      ∃ found, loadFont tools config shop = (found, .ok ()) ∧
        drawn.strokes.toList = found.strokes.toList
          ++ (animationOf config frames durations).pictures.flatMap strokesOf
          ++ [.save path (animationOf config frames durations)] := by
  simp only [render] at h
  rcases hfont : loadFont tools config shop with ⟨found, failure | done⟩
  · rw [hfont] at h
    cases h
  · rcases hdrawn : drawRuns tools config (runsOf frames) found with ⟨sketched, failure | pictures⟩
    · simp only [hfont, hdrawn] at h
      cases h
    · obtain ⟨rfl, hsketched⟩ := drawRuns_eq_ok hdrawn
      cases htimes : (runsOf frames).mapM (durationOf config) with
      | error error =>
          simp only [hfont, hdrawn, htimes] at h
          cases h
      | ok durations =>
          simp only [hfont, hdrawn, htimes] at h
          rcases hsaved : save tools path (animationOf config frames durations) sketched with
            ⟨saved, failure | done⟩
          · rw [animationOf] at hsaved
            rw [hsaved] at h
            cases h
          · obtain ⟨-, hsaving⟩ := save_eq_ok hsaved
            obtain ⟨hdisk, hread⟩ := Workshop.eq_of_save hsaving
            rw [animationOf] at hsaved
            rw [hsaved] at h
            cases h
            refine ⟨durations, rfl, hread, found, rfl, ?_⟩
            rw [hdisk, hsketched]
            simp [Workshop.draw, animationOf]

end Gif

/-! ## Recordings -/

namespace Cast

variable {config : Config}

/-- An event begins where its run begins. -/
theorem getElem?_eventsFrom (config : Config) (index : Nat) (runs : List Run) (k : Nat) :
    (eventsFrom config index runs)[k]? = runs[k]?.map fun run =>
      .event (.real (timeOf config (index + Run.start runs k))) "o" (dataOf run.frame) := by
  induction runs generalizing index k with
  | nil => rfl
  | cons run rest ih =>
      cases k with
      | zero => rfl
      | succ k =>
          rw [eventsFrom, List.getElem?_cons_succ, List.getElem?_cons_succ, ih, Run.start_succ,
            Nat.add_assoc]

theorem length_eventsFrom (config : Config) (index : Nat) (runs : List Run) :
    (eventsFrom config index runs).length = runs.length := by
  induction runs generalizing index with
  | nil => rfl
  | cons run rest ih => rw [eventsFrom, List.length_cons, List.length_cons, ih]

theorem disk_rasterize (tools : Tools) (command : Json) (path : List Char) (shop : Workshop) :
    (rasterize tools command path shop).1.disk = shop.disk := by
  unfold rasterize
  split
  · split
    · rfl
    · simp only
      split <;> rfl
  · rfl

/-- What is left by a renderer of recordings that succeeds: a file with all records. -/
theorem write_eq_ok {path : List Char} {frames : List Frame} {shop written : Workshop}
    (h : write config path frames shop = (written, .ok ())) :
    ∃ made, records config frames = .ok made ∧ (textOf made).2 = none ∧
      written.disk.read path = .ok (.text (textOf made).1) := by
  simp only [write] at h
  rcases hsaved : shop.save path (.text []) with ⟨saved, failure | done⟩
  · rw [hsaved] at h
    cases h
  · cases hmade : records config frames with
    | error error =>
        simp only [hsaved, hmade] at h
        cases h
    | ok made =>
        simp only [hsaved, hmade] at h
        split at h
        · cases h
        · rcases hfilled : saved.fill path (.text (textOf made).1) with ⟨filled, failure | done⟩
          · simp only [hfilled] at h
            cases h
          · cases hfault : (textOf made).2 with
            | some fault =>
                simp only [hfilled, hfault] at h
                cases h
            | none =>
                simp only [hfilled, hfault] at h
                cases h
                exact ⟨made, rfl, hfault, (Workshop.eq_of_fill hfilled).2⟩

theorem render_eq_ok {tools : Tools} {path file : List Char} {frames : List Frame}
    {shop recorded : Workshop} (h : render tools config path frames shop = (recorded, .ok file)) :
    ∃ made, records config frames = .ok made ∧ (textOf made).2 = none ∧
      recorded.disk.read path = .ok (.text (textOf made).1) := by
  unfold render at h
  rcases hwritten : write config path frames shop with ⟨written, failure | done⟩
  · rw [hwritten] at h
    cases h
  · obtain ⟨made, hmade, hall, hread⟩ := write_eq_ok hwritten
    refine ⟨made, hmade, hall, ?_⟩
    simp only [hwritten] at h
    split at h
    · have hdisk := disk_rasterize tools config.castCommand path written
      rw [h] at hdisk
      rw [show recorded.disk = written.disk from hdisk]
      exact hread
    · cases h
      exact hread

theorem records_eq_ok {frames : List Frame} {made : List CastRecord}
    (h : records config frames = .ok made) :
    ∃ header, made = header :: eventsFrom config 0 (Frame.runs frames) := by
  obtain ⟨header, -, h⟩ := exists_of_bind_eq_ok h
  cases h
  exact ⟨header, rfl⟩

end Cast

/-! ## The same animation -/

/-- What the three formats show of a run: the same lines, for the same time. -/
structure ShowsRun (config : Config) (frames : List Frame) (animation : Animation) (document : Xml)
    (events : List CastRecord) (k : Nat) (run : Run) : Prop where
  /-- The picture has one text for each line, at its height, and is shown for as long as the run. -/
  picture : ∃ picture duration, animation.pictures[k]? = some picture ∧
    animation.durations[k]? = some duration ∧
    picture.labels = run.frame.mapIdx (fun j line =>
      ⟨config.paddingX, config.paddingY + j * config.lineHeight, line, config.foreground⟩) ∧
    (config.timeShown run.length).round = .ok duration
  /-- The text has one element for each line, and is hidden after as many seconds as the run takes, spelled
  with six decimal places. -/
  text : ∃ text seconds, (document.named "text")[k]? = some text ∧
    (text.named "tspan").map (fun line => Text.ofChars line.content) = run.frame ∧
    (text.named "animate").map (Xml.attribute? "begin")
      = [some (Svg.enterBegin (k + 1) (Frame.runs frames).length),
        some (Svg.enterId (k + 1) ++ ".end+".toList ++ (seconds ++ ['s']))] ∧
    Binary64.Spells 6 ((config.timeShown run.length).div (.ofInt 1000)) seconds
  /-- The event clears the screen and writes the lines, after as many seconds as the runs before it take,
  rounded to six decimal places. -/
  event : ∃ data, events[k]? = some (.event
      (.real (((config.timeShown (Run.start (Frame.runs frames) k)).div (.ofInt 1000)).roundPlaces 6))
      "o" (Cast.clearScreen ++ data)) ∧
    frames[Run.start (Frame.runs frames) k]? = some run.frame ∧
    (run.frame ≠ [] → Text.splitOn "\r\n" data = run.frame)

/-- What it means that three formats show the same animation. -/
structure ShowSame (config : Config) (frames : List Frame) (animation : Animation) (document : Xml)
    (events : List CastRecord) : Prop where
  pictureCount : animation.pictures.length = max 1 (Frame.runs frames).length
  durationCount : animation.durations.length = max 1 (Frame.runs frames).length
  textCount : (document.named "text").length = (Frame.runs frames).length
  eventCount : events.length = (Frame.runs frames).length
  runs : ∀ k run, (Frame.runs frames)[k]? = some run →
    ShowsRun config frames animation document events k run

theorem Gif.runsOf_eq {frames : List Frame} (h : Frame.runs frames ≠ []) :
    runsOf frames = Frame.runs frames := by
  unfold runsOf
  split
  · next hnone => exact absurd hnone h
  · rfl

theorem Gif.length_runsOf (frames : List Frame) :
    (runsOf frames).length = max 1 (Frame.runs frames).length := by
  by_cases h : Frame.runs frames = []
  · simp [runsOf, h]
  · rw [runsOf_eq h]
    exact (Nat.max_eq_right (List.length_pos_iff.mpr h)).symm

theorem Text.ofChars_chars_of_holds {line : Text} (h : Xml.Holds line) :
    Text.ofChars line.chars = line :=
  Text.ofChars_chars fun c hc => CodePoint.isSurrogate_of_satisfies (h c hc)

/-- The lines of a text element are those of its run. -/
theorem Svg.lines_textElement {config : Config} {number count : Nat} {run : Run}
    (h : ∀ line ∈ run.frame, Xml.Holds line) :
    ((textElement config number count run).named "tspan").map (fun line => Text.ofChars line.content)
      = run.frame := by
  rw [named_tspan_textElement]
  calc (lineElements config run.frame).map (fun line => Text.ofChars line.content)
      = ((lineElements config run.frame).map Xml.content).map Text.ofChars := by
        rw [List.map_map]; rfl
    _ = run.frame.map fun line => Text.ofChars line.chars := by
        rw [map_content_lineElements, List.map_map]; rfl
    _ = run.frame.map id :=
        List.map_congr_left fun line hline => Text.ofChars_chars_of_holds (h line hline)
    _ = run.frame := List.map_id run.frame

/-- If the three renderers succeed, they show the same animation: in the file of pictures and in what was
drawn for it, in the document, and in the recording. -/
theorem renderings_showSame {tools : Tools} {config : Config} {frames : List Frame}
    {gifPath svgPath castPath gifFile svgFile castFile : List Char}
    {gifShop svgShop castShop drawn written recorded : Workshop}
    (hlines : ∀ frame ∈ frames, ∀ line ∈ frame, .char '\n' ∉ line)
    (hgif : Gif.render tools config gifPath frames gifShop = (drawn, .ok gifFile))
    (hsvg : Svg.render config svgPath frames svgShop = (written, .ok svgFile))
    (hcast : Cast.render tools config castPath frames castShop = (recorded, .ok castFile)) :
    ∃ animation document header events, ShowSame config frames animation document events ∧
      drawn.disk.read gifPath = .ok (.animation animation) ∧
      (∃ before, drawn.strokes.toList
        = before ++ animation.pictures.flatMap Gif.strokesOf ++ [.save gifPath animation]) ∧
      Svg.documentOf config frames = .ok document ∧
      written.disk.read svgPath = .ok (.text document.document) ∧
      Cast.records config frames = .ok (header :: events) ∧
      recorded.disk.read castPath = .ok (.text (Cast.textOf (header :: events)).1) ∧
      (Cast.textOf (header :: events)).2 = none := by
  obtain ⟨durations, hdurations, hanimation, found, -, hstrokes⟩ := Gif.render_eq_ok hgif
  obtain ⟨document, hdocument, hdocumentText⟩ := Svg.render_eq_ok hsvg
  obtain ⟨made, hmade, hall, hrecording⟩ := Cast.render_eq_ok hcast
  obtain ⟨⟨style, color, rfl⟩, hholds⟩ := Svg.documentOf_eq_ok hdocument
  obtain ⟨header, rfl⟩ := Cast.records_eq_ok hmade
  obtain ⟨hcount, hduration⟩ := getElem?_of_mapM hdurations
  refine ⟨_, _, header, _, ?_, hanimation, ⟨_, hstrokes⟩, hdocument, hdocumentText, hmade, hrecording,
    hall⟩
  refine ⟨?_, ?_, ?_, Cast.length_eventsFrom _ _ _, fun k run hrun => ?_⟩
  · rw [Gif.animationOf, List.length_map, Gif.length_runsOf]
  · rw [Gif.animationOf, hcount, Gif.length_runsOf]
  · rw [Svg.named_text_root, List.length_mapIdx]
  · have hmem : run ∈ Frame.runs frames := List.mem_of_getElem? hrun
    have hgifRun : (Gif.runsOf frames)[k]? = some run := by
      rw [Gif.runsOf_eq (List.ne_nil_of_mem hmem), hrun]
    refine ⟨?picture, ?text, ?event⟩
    case picture =>
      obtain ⟨duration, hk, hround⟩ := hduration k run hgifRun
      refine ⟨Gif.pictureOf config run.frame, duration, ?_, hk, ?_, Gif.round_of_durationOf hround⟩
      · rw [Gif.animationOf, List.getElem?_map, hgifRun, Option.map_some]
      · rw [Gif.pictureOf, Gif.labelsFrom_eq_mapIdx]
        simp only [Nat.zero_add]
    case text =>
      refine ⟨Svg.textElement config (k + 1) (Frame.runs frames).length run, _, ?_, ?_, ?_,
        Binary64.spells_fixedText (by decide) _⟩
      · rw [Svg.named_text_root, List.getElem?_mapIdx, hrun, Option.map_some]
      · exact Svg.lines_textElement fun line hline => (hholds run hmem line hline).characters
      · rw [Svg.named_animate_textElement]
        rfl
    case event =>
      refine ⟨Text.joinWith "\r\n" run.frame, ?_, Frame.getElem?_start hrun, fun hne => ?_⟩
      · rw [Cast.getElem?_eventsFrom, hrun, Nat.zero_add]
        rfl
      · have hframe := hlines run.frame (Frame.frame_mem_of_mem_runs hmem)
        exact Text.splitOn_joinWith (by decide) hne hframe

/-- A small screen. -/
def smallConfig : Config :=
  { (default : Config) with
    fps := .int 10
    lineCount := 2
    title := .string "small"
    width := 30
    fontSize := 16
    fontFamily := .string "monospace"
    fontPath := .null
    lineHeight := 20
    cellWidth := 10
    foreground := .string "#f0f0f0"
    background := .string "#000000"
    castCommand := .string [] }

/-- Three frames in two runs. -/
def smallFrames : List Frame := [["a"], ["a "], ["a", "b"]]

/-- What draws, encodes and calls for everything that is asked of it. -/
def willingTools : Tools := ⟨fun _ => .done, fun _ _ _ => .done, fun _ => none, fun _ => none⟩

theorem renderings_showSame_small :
    ∃ animation document events, ShowSame smallConfig smallFrames animation document events ∧
      animation.durations = [200, 100] ∧
      (document.named "animate").map (Xml.attribute? "begin")
        = ["0s; frame2leave.end", "frame1enter.end+0.200000s", "frame1leave.end",
          "frame2enter.end+0.100000s"].map (fun begins => some begins.toList) ∧
      events.map CastRecord.line
        = ["[0.0, \"o\", \"\\u001b[2J\\u001b[Ha\"]",
          "[0.2, \"o\", \"\\u001b[2J\\u001b[Ha\\r\\nb\"]"].map Text.ofString := by
  let shop : Workshop := .ofDisk ⟨∅, [], 0⟩
  have hlines : ∀ frame ∈ smallFrames, ∀ line ∈ frame, .char '\n' ∉ line := by decide
  have hgifs : (Gif.render willingTools smallConfig "a.gif".toList smallFrames shop).2.toOption.isSome
      = true := by decide +kernel
  have hbegins : (Svg.documentOf smallConfig smallFrames).toOption.map
      (fun document => (document.named "animate").map (Xml.attribute? "begin"))
        = some (["0s; frame2leave.end", "frame1enter.end+0.200000s", "frame1leave.end",
          "frame2enter.end+0.100000s"].map (fun begins => some begins.toList)) := by decide +kernel
  have hcasts : (Cast.render willingTools smallConfig "a.cast".toList smallFrames shop).2.toOption.isSome
      = true := by decide +kernel
  rcases hgif : Gif.render willingTools smallConfig "a.gif".toList smallFrames shop with
    ⟨drawn, failure | gifFile⟩
  · rw [hgif] at hgifs
    cases hgifs
  cases hmade : Svg.documentOf smallConfig smallFrames with
  | error failure =>
    rw [hmade] at hbegins
    cases hbegins
  | ok made =>
  have hpath : shop.disk.Writable "a.svg".toList := ⟨_, _, rfl, rfl⟩
  obtain ⟨written, hsvg⟩ := Svg.render_of_writable hmade hpath
  rcases hcast : Cast.render willingTools smallConfig "a.cast".toList smallFrames shop with
    ⟨recorded, failure | castFile⟩
  · rw [hcast] at hcasts
    cases hcasts
  obtain ⟨animation, document, header, events, hsame, -, -, hdocument, -, hrecords, -⟩ :=
    renderings_showSame hlines hgif hsvg hcast
  refine ⟨animation, document, events, hsame, ?durations, ?begins, ?events⟩
  case durations =>
    obtain ⟨-, first, -, hfirst, -, hfirstRound⟩ := (hsame.runs 0 ⟨["a"], 2⟩ rfl).picture
    obtain ⟨-, second, -, hsecond, -, hsecondRound⟩ := (hsame.runs 1 ⟨["a", "b"], 1⟩ rfl).picture
    have htwo : (smallConfig.timeShown 2).round = .ok 200 := by decide +kernel
    have hone : (smallConfig.timeShown 1).round = .ok 100 := by decide +kernel
    cases htwo.symm.trans hfirstRound
    cases hone.symm.trans hsecondRound
    have hcount : animation.durations.length = 2 := hsame.durationCount
    refine List.ext_getElem? fun k => ?_
    match k with
    | 0 => exact hfirst
    | 1 => exact hsecond
    | k + 2 => rw [List.getElem?_eq_none (by omega), List.getElem?_eq_none (by simp)]
  case begins =>
    rw [hdocument] at hbegins
    exact Option.some.inj hbegins
  case events =>
    have hevents : (Cast.records smallConfig smallFrames).toOption.map
        (fun records => records.tail.map CastRecord.line)
          = some (["[0.0, \"o\", \"\\u001b[2J\\u001b[Ha\"]",
            "[0.2, \"o\", \"\\u001b[2J\\u001b[Ha\\r\\nb\"]"].map Text.ofString) := by decide +kernel
    rw [hrecords] at hevents
    exact Option.some.inj hevents

end Screencast
