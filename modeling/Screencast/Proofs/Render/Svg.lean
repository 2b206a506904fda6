import Screencast.Proofs.Disk.Writing
import Screencast.Proofs.Render.Checks
import Screencast.Render.Svg

/-!
# Which frames can stand in a document

A document holds the characters that its format allows, and numbers that are not too long.  Everything
else ends the program: no failure of this renderer is reported.
-/

namespace Screencast

/-- A text that a document can hold. -/
def Xml.Holds (text : Text) : Prop := ∀ c ∈ text, c.satisfies Xml.allows = true

namespace Svg

/-- A line that a document can hold. -/
structure HoldsLine (config : Config) (line : Text) : Prop where
  length : (Text.displayWidth line).getD 0 * config.cellWidth < numberLimit
  characters : Xml.Holds line

/-- Frames that a document can hold: the numbers have not too many digits, and the texts for the look
of the frames and the lines of the frames consist of allowed characters. -/
structure Draws (config : Config) (foreground fontFamily background : Text) (frames : List Frame) :
    Prop where
  width : config.width < numberLimit
  height : config.height < numberLimit
  fontSize : config.fontSize < numberLimit
  foreground : Xml.Holds foreground
  fontFamily : Xml.Holds fontFamily
  background : Xml.Holds background
  place : Frame.runs frames ≠ [] → config.paddingX < numberLimit
  lines : ∀ run ∈ Frame.runs frames, ∀ line ∈ run.frame, HoldsLine config line

theorem checks_contentOf (text : Text) : Checks (Xml.Holds text) (contentOf text) := by
  unfold contentOf Text.encode
  by_cases hsurrogate : text.any CodePoint.isSurrogate = true
  · rw [if_pos hsurrogate]
    refine .failed (fun hholds => ?_) rfl
    obtain ⟨c, hc, hisSurrogate⟩ := List.any_eq_true.mp hsurrogate
    rw [CodePoint.isSurrogate_of_satisfies (hholds c hc)] at hisSurrogate
    cases hisSurrogate
  · rw [if_neg hsurrogate]
    -- without surrogates the characters of the text are all of it
    have hchars : text.chars.all Xml.allows = true ↔ Xml.Holds text := by
      rw [Bool.not_eq_true, List.any_eq_false] at hsurrogate
      simp only [Text.chars, List.all_eq_true, List.mem_filterMap, Xml.Holds]
      constructor
      · intro hall c hc
        cases c with
        | char c => exact hall c ⟨.char c, hc, rfl⟩
        | surrogate index => exact absurd rfl (hsurrogate _ hc)
      · rintro hall c ⟨code, hcode, hc⟩
        cases code with
        | char c' =>
            cases hc
            exact hall _ hcode
        | surrogate index => cases hc
    change Checks _ (if text.chars.all Xml.allows then .ok text.chars else .error .character)
    split
    · next hall => exact .passed (hchars.mp hall) _
    · next hall => exact .failed (fun hholds => hall (hchars.mpr hholds)) rfl

theorem checks_checkLine (config : Config) (line : Text) :
    Checks (HoldsLine config line) (checkLine config line) := by
  unfold checkLine
  refine (Checks.guard rfl ((checks_contentOf line).map _)).congr ?_
  simp only [allowsLength, Bool.not_eq_true', decide_eq_false_iff_not, Decidable.not_not]
  exact ⟨fun h => ⟨h.1, h.2⟩, fun h => ⟨h.length, h.characters⟩⟩

theorem checks_checkRun (config : Config) (run : Run) :
    Checks (config.paddingX < numberLimit ∧ ∀ line ∈ run.frame, HoldsLine config line)
      (checkRun config run) := by
  unfold checkRun
  refine (Checks.guard rfl (Checks.forM (checks_checkLine config) run.frame)).congr ?_
  rw [Nat.not_le]

section

variable {config : Config} {foreground fontFamily background : Text}

end

end Svg

end Screencast
