import Screencast.Proofs.Render.Elements
import Screencast.Proofs.Text.Digits
import Screencast.Proofs.Text.Splitting

/-!
# When the animations of a document begin

An animation waits for a time of the document, or for another animation to end.  `starts` reads what an
animation waits for from the text of its attribute, `playing` lets the animations of a document follow
each other round by round, and `opacity` is what that does to a text of the document.
-/

namespace Screencast.Svg

/-- What an animation may wait for. -/
inductive Start where
  /-- A time of the document. -/
  | clock (time : List Char)
  /-- The end of an animation, and a delay after it. -/
  | endOf (id : List Char) (delay : Option (List Char))
  deriving DecidableEq

/-- Reads a start.  The id of an animation goes up to the first point. -/
def Start.ofText (text : List Char) : Start :=
  match text.dropWhile (· ≠ '.') with
  | ['.', 'e', 'n', 'd'] => .endOf (text.takeWhile (· ≠ '.')) none
  | '.' :: 'e' :: 'n' :: 'd' :: '+' :: delay => .endOf (text.takeWhile (· ≠ '.')) (some delay)
  | _ => .clock text

/-- The starts that a value lists: they are divided by semicolons, and blanks before them do not
count. -/
def startsOf (value : List Char) : List Start :=
  (Text.splitAt ';' value).map fun part => .ofText (part.dropWhile (· = ' '))

/-- The starts of an animation. -/
def starts (animation : Xml) : List Start :=
  ((animation.attribute? "begin").map startsOf).getD []

/-- Whether an animation begins at a time of the document. -/
def opens (animation : Xml) : Bool :=
  (starts animation).any fun
    | .clock _ => true
    | .endOf _ _ => false

/-- Whether an animation begins at the end of another one, at once or after a delay. -/
def follows (animation ended : Xml) : Bool :=
  (starts animation).any fun
    | .clock _ => false
    | .endOf id _ => ended.attribute? "id" = some id

/-- The animations that begin in a round: those that wait for a time of the document in the first one,
and then those that wait for the end of one of the round before. -/
def playing (animations : List Xml) : Nat → List Xml
  | 0 => animations.filter opens
  | round + 1 =>
    animations.filter fun animation => (playing animations round).any (follows animation)

/-- Whether an animation is one of those of a text. -/
def belongs (text animation : Xml) : Bool :=
  ((text.named "animate").map (Xml.attribute? "id")).contains (animation.attribute? "id")

/-- The opacity of a text before a round: each round leaves the value of the last of its animations that
belongs to the text. -/
def opacity (document text : Xml) : Nat → Option (List Char)
  | 0 => text.attribute? "opacity"
  | round + 1 =>
    match ((playing (document.named "animate") round).filter (belongs text)).getLast? with
    | none => opacity document text round
    | some animation => animation.attribute? "to"

/-! ## Reading a start

The marks of a value are no letters and no digits, and the ids in it consist of these.
-/

/-- Letters and digits only. -/
def IsName (name : List Char) : Prop := ∀ c ∈ name, c.isAlphanum = true

theorem isName_append {name more : List Char} : IsName (name ++ more) ↔ IsName name ∧ IsName more :=
  List.forall_mem_append

theorem isName_of_all {name : List Char} (h : name.all Char.isAlphanum = true) : IsName name :=
  List.all_eq_true.mp h

theorem isName_numeral (n : Nat) : IsName (numeral n) := by
  intro c hc
  have hdigit : c.isDigit = true := Text.allDigits_toDigits n c hc
  simp [Char.isAlphanum, hdigit]

theorem isName_enterId (number : Nat) : IsName (enterId number) := by
  refine isName_append.mpr ⟨isName_append.mpr ⟨?_, isName_numeral number⟩, ?_⟩
  · exact isName_of_all (by decide)
  · exact isName_of_all (by decide)

theorem isName_leaveId (number : Nat) : IsName (leaveId number) := by
  refine isName_append.mpr ⟨isName_append.mpr ⟨?_, isName_numeral number⟩, ?_⟩
  · exact isName_of_all (by decide)
  · exact isName_of_all (by decide)

namespace IsName

variable {name : List Char}

theorem not_mem (h : IsName name) {mark : Char} (hmark : mark.isAlphanum = false) :
    mark ∉ name := by
  intro hmem
  rw [h mark hmem] at hmark
  cases hmark

/-- A name ends at the first point. -/
theorem takeWhile_dropWhile (h : IsName name) (rest : List Char) :
    (name ++ '.' :: rest).takeWhile (· ≠ '.') = name ∧
      (name ++ '.' :: rest).dropWhile (· ≠ '.') = '.' :: rest := by
  have hname : ∀ c ∈ name, decide (c ≠ '.') = true := by
    intro c hc
    rw [decide_eq_true_eq]
    rintro rfl
    exact h.not_mem (by decide) hc
  constructor
  · rw [List.takeWhile_append_of_pos hname]
    simp
  · rw [List.dropWhile_append_of_pos hname]
    simp

/-- No blanks stand before a name and a point. -/
theorem dropWhile_blank (h : IsName name) (rest : List Char) :
    (name ++ '.' :: rest).dropWhile (· = ' ') = name ++ '.' :: rest := by
  cases name with
  | nil => rfl
  | cons c name =>
      have hc : c ≠ ' ' := by
        rintro rfl
        exact h.not_mem (by decide) List.mem_cons_self
      rw [List.cons_append, List.dropWhile_cons_of_neg]
      simpa using hc

end IsName

/-- No semicolon stands in a number of seconds. -/
theorem not_mem_secondsText (duration : Binary64) : ';' ∉ secondsText duration := by
  have hdigits {digits : List Char} (h : Text.AllDigits digits) : ';' ∉ digits := fun hmem =>
    absurd (h _ hmem) (by decide)
  have hsign (negative : Bool) : ';' ∉ (if negative then ['-'] else []) := by
    cases negative <;> decide
  have hnumber (places : Nat) (x : Binary64) : ';' ∉ fixedText places x := by
    cases x with
    | nan =>
        rw [fixedText]
        decide
    | infinite negative =>
        rw [fixedText, List.mem_append, not_or]
        exact ⟨hsign negative, by decide⟩
    | finite negative m e =>
        have hwhole (n : Nat) : ';' ∉ Nat.toDigits 10 n := hdigits (Text.allDigits_toDigits n)
        have hzeros (n : Nat) : ';' ∉ List.replicate n '0' := hdigits (Text.allDigits_zeros n)
        simp only [fixedText, List.mem_append, List.mem_cons, not_or]
        exact ⟨⟨⟨hsign negative, hwhole _⟩, by decide, hzeros _⟩, hwhole _⟩
  rw [secondsText, List.mem_append, not_or]
  exact ⟨hnumber 6 _, by decide⟩

section

variable {id : List Char}

/-- An animation that begins as soon as another one ends. -/
theorem startsOf_afterEnd (h : IsName id) : startsOf (id ++ ".end".toList) = [.endOf id none] := by
  have hmark : ';' ∉ id ++ ".end".toList := by
    rw [List.mem_append, not_or]
    exact ⟨h.not_mem (by decide), by decide⟩
  have hblank : (id ++ ".end".toList).dropWhile (· = ' ') = id ++ ".end".toList :=
    h.dropWhile_blank "end".toList
  have htake : (id ++ ".end".toList).takeWhile (· ≠ '.') = id :=
    (h.takeWhile_dropWhile "end".toList).1
  have hdrop : (id ++ ".end".toList).dropWhile (· ≠ '.') = ['.', 'e', 'n', 'd'] :=
    (h.takeWhile_dropWhile "end".toList).2
  rw [startsOf, Text.splitAt_of_not_mem hmark, List.map_singleton, hblank, Start.ofText, hdrop, htake]
  rfl

/-- An animation that begins some time after another one ends. -/
theorem startsOf_afterDelay (h : IsName id) {delay : List Char} (hdelay : ';' ∉ delay) :
    startsOf (id ++ ".end+".toList ++ delay) = [.endOf id (some delay)] := by
  have hmark : ';' ∉ id ++ ".end+".toList ++ delay := by
    rw [List.mem_append, List.mem_append, not_or, not_or]
    exact ⟨⟨h.not_mem (by decide), by decide⟩, hdelay⟩
  have htext : id ++ ".end+".toList ++ delay = id ++ '.' :: ("end+".toList ++ delay) :=
    List.append_assoc ..
  obtain ⟨htake, hdrop⟩ := h.takeWhile_dropWhile ("end+".toList ++ delay)
  rw [startsOf, Text.splitAt_of_not_mem hmark, List.map_singleton, htext, h.dropWhile_blank,
    Start.ofText, hdrop, htake]
  rfl

/-- A blank in front does not count. -/
theorem startsOf_blank (value : List Char) : startsOf (' ' :: value) = startsOf value := by
  obtain ⟨piece, pieces, hpieces⟩ := List.exists_cons_of_ne_nil (Text.splitAt_ne_nil ';' value)
  have hblank : Text.splitAt ';' (' ' :: value) = (' ' :: piece) :: pieces := by
    rw [Text.splitAt, if_neg (by decide), hpieces]
  rw [startsOf, startsOf, hblank, hpieces]
  rfl

/-- An animation that begins with the document and whenever another one ends. -/
theorem startsOf_clock (h : IsName id) :
    startsOf ("0s; ".toList ++ id ++ ".end".toList) = [.clock "0s".toList, .endOf id none] := by
  have hmark : ';' ∉ "0s".toList := by decide
  have hrest : startsOf (' ' :: (id ++ ".end".toList)) = [.endOf id none] :=
    (startsOf_blank _).trans (startsOf_afterEnd h)
  have htext : "0s; ".toList ++ id ++ ".end".toList
      = "0s".toList ++ ';' :: ' ' :: (id ++ ".end".toList) := List.append_assoc ..
  rw [htext, startsOf, Text.splitAt_append_cons hmark, List.map_cons]
  exact congrArg₂ List.cons rfl hrest

theorem starts_animate (id start stop begins : List Char) :
    starts (animate id start stop begins) = startsOf begins := by
  simp [starts, animate, Xml.empty, Xml.attribute?, List.lookup_cons]

theorem id_animate (id start stop begins : List Char) :
    (animate id start stop begins).attribute? "id" = some id := by
  simp [animate, Xml.empty, Xml.attribute?]

theorem to_animate (id start stop begins : List Char) :
    (animate id start stop begins).attribute? "to" = some stop := by
  simp [animate, Xml.empty, Xml.attribute?, List.lookup_cons]

theorem starts_enter (number count : Nat) (start stop : List Char) :
    starts (animate (enterId number) start stop (enterBegin number count))
      = if number = 1 then [.clock "0s".toList, .endOf (leaveId count) none]
        else [.endOf (leaveId (number - 1)) none] := by
  rw [starts_animate, enterBegin]
  split
  · exact startsOf_clock (isName_leaveId count)
  · exact startsOf_afterEnd (isName_leaveId (number - 1))

theorem starts_leave (config : Config) (number length : Nat) (start stop : List Char) :
    starts (animate (leaveId number) start stop (leaveBegin config number length))
      = [.endOf (enterId number)
          (some (secondsText ((Binary64.ofInt length).mul config.frameDuration)))] := by
  rw [starts_animate, leaveBegin]
  exact startsOf_afterDelay (isName_enterId number) (not_mem_secondsText _)

end

end Screencast.Svg
