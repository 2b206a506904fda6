import Screencast.Render.Cast
import Screencast.Render.Gif
import Screencast.Render.Svg
import Screencast.Text.Case

/-!
# Choosing a renderer

The extension of a path chooses the renderer, and the renderer sets the extension of its path.
-/

namespace Screencast

/-- A renderer and the path it writes to. -/
structure Target where
  renderer : Renderer
  path : List Char
  deriving DecidableEq, Repr

namespace Target

/-- The renderer that an extension names, in letters of any case. -/
def ofExtension? (extension : List Char) : Option Renderer :=
  Renderer.ofName? (String.ofList (Text.toLower (extension.drop 1)))

/-- What a renderer writes to when a path is asked for. -/
def ofRenderer (renderer : Renderer) (path : List Char) : Target :=
  ⟨renderer, Path.setExtension path renderer.extension.toList⟩

/-- The target for a path, with a renderer for extensions that name none. -/
def choose (path : List Char) (fallback : Renderer) : Target :=
  ofRenderer ((ofExtension? (Path.splitExtension path).2).getD fallback) path

/-- The renderer of a name given as a value. -/
def rendererOf (name : Json) : Except RenderFailure Renderer :=
  match name with
  | .string s =>
    match Renderer.ofName? s with
    | some renderer => .ok renderer
    | none => .error (.reported (.unknownRenderer name))
  | .array _ | .object _ => .error (.rendererKind name.kindName)
  | _ => .error (.reported (.unknownRenderer name))

/-- The target for a path, with the name of the renderer for extensions that name none. -/
def select (path : List Char) (fallback : Json) : Except RenderFailure Target :=
  match ofExtension? (Path.splitExtension path).2 with
  | some renderer => .ok (ofRenderer renderer path)
  | none => do return ofRenderer (← rendererOf fallback) path

theorem rendererOf_extension (renderer : Renderer) :
    rendererOf (.string renderer.extension) = .ok renderer := by
  simp only [rendererOf, Renderer.ofName?_extension]

/-- A renderer given by its name is chosen like the renderer itself. -/
theorem select_renderer (path : List Char) (fallback : Renderer) :
    select path (.string fallback.extension) = .ok (choose path fallback) := by
  unfold select choose
  cases ofExtension? (Path.splitExtension path).2 with
  | some renderer => rfl
  | none => rw [rendererOf_extension]; rfl

/-- Renders frames. -/
def render (target : Target) (tools : Tools) (config : Config) (frames : List Frame)
    (shop : Workshop) : Rendering :=
  match target.renderer with
  | .gif => Gif.render tools config target.path frames shop
  | .svg => Svg.render config target.path frames shop
  | .cast => Cast.render tools config target.path frames shop

end Target

end Screencast
