import Screencast.Proofs.Disk.Writing
import Screencast.Proofs.Json.Strings
import Screencast.Proofs.Render.Checks
import Screencast.Render.Cast

/-!
# Which frames can be written as a recording

A recording holds every character, but no surrogate, and no number with too many digits.  The command
that makes a picture of it has to consist of words, each of which is a template for the two paths; only
what the external program does with its arguments is reported.
-/

namespace Screencast

namespace CastRecord

theorem encodes_line_event (time : Binary64) (kind data : Text) :
    (line (.event (.real time) kind data)).Encodes ↔ kind.Encodes ∧ data.Encodes := by
  simp [line, toJson, Json.write, Json.writeItems, Json.encodes_writeString]

theorem encodes_line_header (width height : Int) (title : Text) :
    (line (.header (.int width) (.int height) (some title))).Encodes ↔ title.Encodes := by
  simp [line, toJson, Json.write, Json.writeMembers, Json.encodes_writeString]

end CastRecord

namespace Cast

variable {config : Config} {title : Text}

/-! ## The recording -/

/-- Frames that can be written as a recording. -/
structure Writes (config : Config) (title : Text) (frames : List Frame) : Prop where
  columns : config.columns < Text.longNumbers
  lineCount : config.lineCount < Text.longNumbers
  title : title.Encodes
  lines : ∀ run ∈ Frame.runs frames, ∀ line ∈ run.frame, Text.Encodes line

theorem encodes_dataOf (frame : Frame) :
    (dataOf frame).Encodes ↔ ∀ line ∈ frame, Text.Encodes line := by
  rw [dataOf, Text.encodes_append, Text.encodes_joinWith (Text.encodes_ofString _)]
  exact ⟨And.right, fun h => ⟨Text.encodes_ofString _, h⟩⟩

theorem encodes_eventsFrom (config : Config) (index : Nat) (runs : List Run) :
    (∀ record ∈ eventsFrom config index runs, record.line.Encodes) ↔
      ∀ run ∈ runs, ∀ line ∈ run.frame, Text.Encodes line := by
  induction runs generalizing index with
  | nil => simp [eventsFrom]
  | cons run rest ih =>
      rw [eventsFrom, List.forall_mem_cons, ih, CastRecord.encodes_line_event, encodes_dataOf,
        List.forall_mem_cons]
      exact ⟨fun h => ⟨h.1.2, h.2⟩, fun h => ⟨⟨Text.encodes_ofString "o", h.1⟩, h.2⟩⟩

/-- Records are written completely when each of their lines can be encoded. -/
theorem textOf_eq_none_iff (records : List CastRecord) :
    (textOf records).2 = none ↔ ∀ record ∈ records, record.line.Encodes := by
  induction records with
  | nil => simp [textOf]
  | cons record rest ih =>
      rw [List.forall_mem_cons, ← ih, Text.Encodes, ← Text.encode_isOk_iff, textOf]
      cases record.line.encode with
      | error fault => exact iff_of_false nofun fun h => nomatch h.1
      | ok line => exact ⟨fun h => ⟨⟨line, rfl⟩, h⟩, And.right⟩

theorem records_eq (htitle : config.title = .string title) (frames : List Frame) :
    records config frames
      = .ok (.header (.int config.columns) (.int config.lineCount) (some title) ::
          eventsFrom config 0 (Frame.runs frames)) := by
  simp only [records, headerOf, htitle]
  rfl

theorem checks_write (htitle : config.title = .string title) (frames : List Frame)
    {path : List Char} {shop : Workshop} (hpath : shop.disk.Writable path) :
    Checks (Writes config title frames) (write config path frames shop).2 := by
  obtain ⟨saved, hsaved, hfill⟩ := Workshop.save_of_writable hpath (.text [])
  simp only [write, hsaved, records_eq htitle]
  have hlong : hasLongNumber config = true ↔
      ¬(config.columns < Text.longNumbers ∧ config.lineCount < Text.longNumbers) := by
    simp only [hasLongNumber, Bool.or_eq_true, decide_eq_true_eq]
    omega
  have hencodes := textOf_eq_none_iff (.header (.int config.columns) (.int config.lineCount)
    (some title) :: eventsFrom config 0 (Frame.runs frames))
  rw [List.forall_mem_cons, CastRecord.encodes_line_header, encodes_eventsFrom] at hencodes
  split
  · next hlongNumber =>
    exact .failed (fun h => hlong.mp hlongNumber ⟨h.columns, h.lineCount⟩) rfl
  · next hshort =>
    obtain ⟨hcolumns, hlineCount⟩ := Decidable.not_not.mp (mt hlong.mpr hshort)
    rcases htext : textOf (.header (.int config.columns) (.int config.lineCount)
        (some title) :: eventsFrom config 0 (Frame.runs frames)) with ⟨text, _ | fault⟩
    · obtain ⟨filled, hfilled⟩ := hfill (.text text)
      rw [htext] at hencodes
      simp only [hfilled]
      obtain ⟨htitle, hlines⟩ := hencodes.mp rfl
      exact .passed ⟨hcolumns, hlineCount, htitle, hlines⟩ ()
    · obtain ⟨filled, hfilled⟩ := hfill (.text text)
      rw [htext] at hencodes
      simp only [hfilled]
      exact .failed (fun h => nomatch hencodes.mpr ⟨h.title, h.lines⟩) rfl

/-! ## The command -/

/-- The arguments that a command gives for a recording: it consists of words, and each of them is a
template that can be filled. -/
def GivesArguments (command : Text) (recording : List Char) (given : List Text) : Prop :=
  ∃ words, Shell.words command = .ok words ∧
    words.mapM (Template.fill (commandValues recording)) = .ok given

/-- The external program can be called with these arguments: calling it ends well or in a failure that is
reported. -/
def Calls (tools : Tools) (given : List Text) : Prop := ∀ label, tools.rasterizer given ≠ .broken label

/-- Frames that can be written, and a command that gives arguments to call the program with, if there is a
command. -/
structure Settled (tools : Tools) (config : Config) (title command : Text) (path : List Char)
    (frames : List Frame) : Prop where
  writes : Writes config title frames
  command : command ≠ [] → ∃ given, GivesArguments command path given ∧ Calls tools given

/-- Code points that an argument of a program can hold: characters but for the null character, and
surrogates that stand for a byte. -/
def isArgumentPoint : CodePoint → Bool
  | .char c => c ≠ Char.ofNat 0
  | .surrogate index => 0x480 ≤ index.val && index.val < 0x500

/-- Arguments of which the first one names the program to be called. -/
def Callable (given : List Text) : Prop :=
  given ≠ [] ∧ ∀ argument ∈ given, ∀ c ∈ argument, isArgumentPoint c = true

/-- The external program is called as the system documents it: with arguments that can be handed over it
runs or is reported as missing, and with others the call breaks off. -/
def CallsPrograms (tools : Tools) : Prop := ∀ given, Calls tools given ↔ Callable given

/-- A blank command is split into no words, so that there is no program to be called. -/
theorem not_settled_of_blank {tools : Tools} (hcalls : CallsPrograms tools) {command : Text}
    (hset : command ≠ []) (hblank : ∀ c ∈ command, Shell.isSeparator c = true) (config : Config)
    (title : Text) (path : List Char) (frames : List Frame) :
    ¬Settled tools config title command path frames := by
  have hwords : ∀ line : Text, (∀ c ∈ line, Shell.isSeparator c = true) →
      Shell.words line = .ok [] := by
    intro line
    induction line with
    | nil => exact fun _ => rfl
    | cons c rest ih =>
        intro hline
        obtain ⟨hc, hrest⟩ := List.forall_mem_cons.mp hline
        have ih := ih hrest
        rw [Shell.words] at ih ⊢
        rw [Shell.wordsFrom]
        simp only [hc, if_true]
        rw [ih]
        rfl
  rintro ⟨-, hcommand⟩
  obtain ⟨given, ⟨words, hsplit, hfilled⟩, hgiven⟩ := hcommand hset
  rw [hwords command hblank] at hsplit
  cases hsplit
  cases hfilled
  exact ((hcalls []).mp hgiven).1 rfl

end Cast

end Screencast
