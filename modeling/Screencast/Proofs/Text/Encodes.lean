import Screencast.Text.Encoding
import Screencast.Text.Lines

/-!
# Texts without surrogates

A text can be encoded exactly when it has no surrogates, and so can its parts.
-/

namespace Screencast

/-- A text that can be encoded: it has no surrogates. -/
def Text.Encodes (text : Text) : Prop := ∀ c ∈ text, c.isSurrogate = false

namespace Text

theorem chars_append (first second : Text) : chars (first ++ second) = first.chars ++ second.chars :=
  List.filterMap_append

@[simp] theorem encodes_append (first second : Text) :
    Encodes (first ++ second) ↔ Encodes first ∧ Encodes second :=
  List.forall_mem_append

@[simp] theorem encodes_char_cons (c : Char) (text : Text) :
    Encodes (.char c :: text) ↔ Encodes text :=
  List.forall_mem_cons.trans ⟨And.right, fun h => ⟨rfl, h⟩⟩

@[simp] theorem encodes_nil : Encodes [] := List.forall_mem_nil _

@[simp] theorem encodes_ofChars (cs : List Char) : Encodes (ofChars cs) := by
  intro c hc
  obtain ⟨character, -, rfl⟩ := List.mem_map.mp hc
  rfl

@[simp] theorem encodes_ofString (s : String) : Encodes (ofString s) := encodes_ofChars s.toList

@[simp] theorem encodes_replicate (count : Nat) (c : Char) :
    Encodes (List.replicate count (.char c)) := by
  intro d hd
  rw [List.eq_of_mem_replicate hd]
  rfl

theorem encodes_flatMap {α : Type} (xs : List α) (f : α → Text) :
    Encodes (xs.flatMap f) ↔ ∀ x ∈ xs, Encodes (f x) := by
  induction xs with
  | nil => simp
  | cons x rest ih => rw [List.flatMap_cons, encodes_append, ih, List.forall_mem_cons]

theorem encodes_joinWith {separator : Text} (hseparator : Encodes separator) (pieces : List Text) :
    Encodes (joinWith separator pieces) ↔ ∀ piece ∈ pieces, Encodes piece := by
  induction pieces with
  | nil => simp [joinWith]
  | cons piece rest ih =>
      cases rest with
      | nil => simp [joinWith]
      | cons next rest =>
          rw [joinWith, encodes_append, encodes_append, ih]
          · simp only [List.forall_mem_cons, hseparator, and_true]
          · intro h
            cases h

theorem encodes_splitLines (text : Text) : (∀ line ∈ splitLines text, Encodes line) ↔ Encodes text := by
  rw [← encodes_joinWith (by simp : Encodes [.char '\n']), ← joinLines, joinLines_splitLines]

end Text

end Screencast
