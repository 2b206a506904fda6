import Screencast.Proofs.Path.Extension
import Screencast.Proofs.Text.Lowering
import Screencast.Render.Select

/-!
# Choosing a renderer twice

The extension of a path chooses the renderer, and the renderer sets the extension in the place where the
next choice looks for it.  `select_chosen` says which renderer is chosen for a path and where it writes to,
and that choosing again for that place changes nothing.
-/

namespace Screencast

namespace Renderer

theorem ofName?_eq_some_iff {name : Text} {renderer : Renderer} :
    ofName? name = some renderer ↔ name = Text.ofString renderer.extension := by
  constructor
  · intro h
    have hname := List.find?_some h
    exact (of_decide_eq_true hname).symm
  · rintro rfl
    exact ofName?_extension renderer

/-- The letters of its extension. -/
def letters (renderer : Renderer) : List Char := renderer.extension.toList

theorem isPlainSmall_letters (renderer : Renderer) :
    ∀ x ∈ renderer.letters, Text.isPlainSmall x = true := by
  have hall : renderer.letters.all Text.isPlainSmall = true := by cases renderer <;> decide
  exact List.all_eq_true.mp hall

theorem isExtension_letters (renderer : Renderer) : Path.IsExtension renderer.letters := by
  cases renderer <;> exact ⟨by decide, by decide⟩

theorem letters_ne_nil (renderer : Renderer) : renderer.letters ≠ [] := by
  cases renderer <;> decide

/-- An extension that is the name of a renderer in letters of any case. -/
def Named (renderer : Renderer) (letters : List Char) : Prop :=
  letters.map Char.toLower = renderer.letters

theorem named_letters (renderer : Renderer) : renderer.Named renderer.letters := by
  unfold Named
  cases renderer <;> decide

end Renderer

namespace Target

open Screencast.Path

variable {path root letters : List Char} {renderer : Renderer}

theorem ofExtension?_eq_some_iff :
    ofExtension? ('.' :: letters) = some renderer ↔ renderer.Named letters := by
  rw [ofExtension?, Renderer.ofName?_eq_some_iff, Renderer.Named,
    ← Text.toLower_eq_iff renderer.isPlainSmall_letters, List.drop_one, List.tail_cons]
  constructor
  · intro h
    have hchars := congrArg Text.chars h
    simp only [Text.ofString, Text.chars_ofChars, String.toList_ofList] at hchars
    exact hchars
  · intro h
    rw [h, Renderer.letters, String.ofList_toList]

theorem ofExtension?_nil : ofExtension? [] = none := by decide

/-! ## The renderer of a path -/

theorem renderer_ofRenderer (renderer : Renderer) (path : List Char) :
    (ofRenderer renderer path).renderer = renderer := rfl

theorem choose_eq (path : List Char) (fallback : Renderer) :
    choose path fallback = ofRenderer (choose path fallback).renderer path := by
  rw [choose, renderer_ofRenderer]

/-- An extension that names a renderer chooses it. -/
theorem renderer_choose_of_named (h : Extends path root letters) (hnamed : renderer.Named letters)
    (fallback : Renderer) : (choose path fallback).renderer = renderer := by
  rw [choose, splitExtension_of_extends h, ofExtension?_eq_some_iff.mpr hnamed]
  rfl

/-- Any other path leaves the choice to the fallback. -/
theorem renderer_choose_of_not_named
    (h : ∀ root letters renderer, Extends path root letters → ¬Renderer.Named renderer letters)
    (fallback : Renderer) : (choose path fallback).renderer = fallback := by
  have hnone : ofExtension? (splitExtension path).2 = none := by
    rcases splitExtension_cases path with ⟨root, letters, hextends⟩ | hbare
    · rw [splitExtension_of_extends hextends, Option.eq_none_iff_forall_ne_some]
      exact fun renderer hsome => h root letters renderer hextends (ofExtension?_eq_some_iff.mp hsome)
    · rw [hbare, ofExtension?_nil]
  rw [choose, hnone]
  rfl

/-! ## The path of a renderer -/

theorem path_ofRenderer (renderer : Renderer) (path : List Char) :
    (ofRenderer renderer path).path = setExtension path renderer.letters := rfl

theorem extends_ofRenderer (hpath : HasStem path) (renderer : Renderer) :
    Extends (ofRenderer renderer path).path (splitExtension path).1 renderer.letters :=
  extends_setExtension hpath renderer.isExtension_letters renderer.letters_ne_nil

/-- Of two renderers, the second one writes to where it would have written at first. -/
theorem ofRenderer_ofRenderer (hpath : HasStem path) (first second : Renderer) :
    ofRenderer second (ofRenderer first path).path = ofRenderer second path := by
  have hset := setExtension_setExtension hpath first.isExtension_letters first.letters_ne_nil
    second.letters
  rw [ofRenderer, path_ofRenderer, ← Renderer.letters, hset]
  rfl

/-- What a renderer writes to makes that renderer be chosen again. -/
theorem choose_ofRenderer (hpath : HasStem path) (renderer fallback : Renderer) :
    choose (ofRenderer renderer path).path fallback = ofRenderer renderer path := by
  have hchosen := renderer_choose_of_named (extends_ofRenderer hpath renderer) renderer.named_letters
    fallback
  rw [choose_eq, hchosen, ofRenderer_ofRenderer hpath]

theorem picturePath_eq (recording : List Char) :
    Cast.picturePath recording = (ofRenderer .gif recording).path := rfl

/-! ## Choosing again -/

/-- What is chosen for a path, with a renderer for extensions that name none. -/
structure Chosen (path : List Char) (fallback : Renderer) (target : Target) : Prop where
  /-- The file lies where it was asked for. -/
  folder : (split target.path).1 = (split path).1 ∧ Path.folder target.path = Path.folder path
  /-- Its extension is that of its renderer, to the letter. -/
  extension : ∃ root, Extends target.path root target.renderer.letters
  named : ∀ root letters renderer, Extends path root letters → Renderer.Named renderer letters →
    target.renderer = renderer
  notNamed :
    (∀ root letters renderer, Extends path root letters → ¬Renderer.Named renderer letters) →
      target.renderer = fallback
  /-- Whatever the fallback, the same is chosen for the path that was chosen. -/
  again : ∀ other : Renderer, select target.path (.string other.extension) = .ok target
  /-- The picture of a recording lies where a picture would have been written. -/
  picture : Cast.picturePath (ofRenderer .cast path).path = (ofRenderer .gif path).path

/-- For a path whose name is not all dots, choosing a renderer is done once and for all. -/
theorem select_chosen (hpath : HasStem path) (fallback : Renderer) :
    ∃ target, select path (.string fallback.extension) = .ok target ∧ Chosen path fallback target := by
  obtain ⟨renderer, hchoose⟩ : ∃ renderer, choose path fallback = ofRenderer renderer path :=
    ⟨_, choose_eq path fallback⟩
  have hsplit : (split (ofRenderer renderer path).path).1 = (split path).1 :=
    split_setExtension path renderer.isExtension_letters renderer.letters_ne_nil
  have hrenderer : (ofRenderer renderer path).renderer = (choose path fallback).renderer := by
    rw [hchoose]
  refine ⟨ofRenderer renderer path, by rw [select_renderer, hchoose], ?_⟩
  exact {
    folder := ⟨hsplit, by rw [Path.folder, hsplit, Path.folder]⟩
    extension := ⟨_, extends_ofRenderer hpath renderer⟩
    named := fun _ _ _ hextends hnamed =>
      hrenderer.trans (renderer_choose_of_named hextends hnamed fallback)
    notNamed := fun h => hrenderer.trans (renderer_choose_of_not_named h fallback)
    again := fun other => by rw [select_renderer, choose_ofRenderer hpath]
    picture := by rw [picturePath_eq, ofRenderer_ofRenderer hpath] }

/-- Dots in the folder and before the name, and an extension in capitals. -/
theorem select_chosen_capitals :
    HasStem "out.d/.demo.GIF".toList ∧ choose "out.d/.demo.GIF".toList .svg
        = ⟨.gif, "out.d/.demo.gif".toList⟩ ∧
      ∃ target, select "out.d/.demo.GIF".toList (.string "svg") = .ok target ∧
        Chosen "out.d/.demo.GIF".toList .svg target :=
  have hstem : HasStem "out.d/.demo.GIF".toList := ⟨'d', by decide +kernel, by decide⟩
  ⟨hstem, by decide +kernel, select_chosen hstem .svg⟩

end Target

end Screencast
