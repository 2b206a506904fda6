import Screencast.Proofs.Results
import Screencast.Render.Basic

/-!
# What ends a rendering

A failure of rendering is either reported to the user or ends the program.  Most of rendering reports
nothing: such a part succeeds under a condition and otherwise fails in a way that ends the program,
which is what `Checks` says of it.  The lemmas follow the ways in which parts are put together, so that
the condition of a whole renderer can be read off its definition.
-/

namespace Screencast

/-- Whether a failure ends the program. -/
def RenderFailure.escapes : RenderFailure → Bool
  | .reported _ => false
  | _ => true

variable {α β ε : Type}

/-- A part of rendering that succeeds under a condition and otherwise ends the program. -/
inductive Checks (condition : Prop) : Except RenderFailure α → Prop
  | passed (holds : condition) (value : α) : Checks condition (.ok value)
  | failed (fails : ¬condition) {failure : RenderFailure} (escapes : failure.escapes = true) :
    Checks condition (.error failure)

namespace Checks

variable {condition : Prop} {result : Except RenderFailure α}

/-- What is known of a part that succeeds. -/
theorem of_ok {value : α} (h : Checks condition result) (hresult : result = .ok value) :
    condition := by
  cases h with
  | passed holds value => exact holds
  | failed fails escapes => cases hresult

/-- What is known of a part that fails. -/
theorem of_error {failure : RenderFailure} (h : Checks condition result)
    (hresult : result = .error failure) : ¬condition ∧ failure.escapes = true := by
  cases h with
  | passed holds value => cases hresult
  | failed fails escapes =>
      cases hresult
      exact ⟨fails, escapes⟩

theorem congr {condition' : Prop} (h : Checks condition result) (hiff : condition ↔ condition') :
    Checks condition' result := by
  rwa [propext hiff] at h

/-- One part after the other. -/
theorem andThen {condition' : Prop} {next : α → Except RenderFailure β}
    (h : Checks condition result) (hnext : ∀ value, Checks condition' (next value)) :
    Checks (condition ∧ condition') (result >>= next) := by
  cases h with
  | passed holds value => exact (hnext value).congr ⟨fun holds' => ⟨holds, holds'⟩, And.right⟩
  | failed fails escapes => exact .failed (fun hboth => fails hboth.1) escapes

theorem map (h : Checks condition result) (f : α → β) : Checks condition (result.map f) := by
  cases h with
  | passed holds value => exact .passed holds (f value)
  | failed fails escapes => exact .failed fails escapes

/-- A failure before anything else. -/
theorem guard {refused : Prop} [Decidable refused] {failure : RenderFailure}
    (hescapes : failure.escapes = true) (h : Checks condition result) :
    Checks (¬refused ∧ condition) (if refused then .error failure else result) := by
  by_cases hrefused : refused
  · rw [if_pos hrefused]
    exact .failed (fun hboth => hboth.1 hrefused) hescapes
  · rw [if_neg hrefused]
    exact h.congr ⟨fun hcondition => ⟨hrefused, hcondition⟩, And.right⟩

/-- A part with failures of its own, none of which is reported. -/
theorem mapError {inner : Except ε α} {fault : ε → RenderFailure}
    (hinner : (∃ value, inner = .ok value) ↔ condition)
    (hfault : ∀ error, (fault error).escapes = true) : Checks condition (inner.mapError fault) := by
  cases inner with
  | ok value => exact .passed (hinner.mp ⟨value, rfl⟩) value
  | error error => exact .failed (fun h => nomatch hinner.mpr h) (hfault error)

/-- The same for all elements of a list. -/
theorem forM {condition : α → Prop} {check : α → Except RenderFailure Unit}
    (h : ∀ x, Checks (condition x) (check x)) (xs : List α) :
    Checks (∀ x ∈ xs, condition x) (xs.forM check) := by
  induction xs with
  | nil => exact .passed (List.forall_mem_nil _) ()
  | cons x rest ih =>
      rw [List.forM_eq_forM, List.forM_cons]
      exact ((h x).andThen fun _ => ih).congr List.forall_mem_cons.symm

theorem mapM {condition : α → Prop} {f : α → Except RenderFailure β}
    (h : ∀ x, Checks (condition x) (f x)) (xs : List α) :
    Checks (∀ x ∈ xs, condition x) (xs.mapM f) := by
  induction xs with
  | nil => exact .passed (List.forall_mem_nil _) []
  | cons x rest ih =>
      rw [List.mapM_cons]
      refine ((h x).andThen fun y => ih.andThen fun ys => .passed trivial (y :: ys)).congr ?_
      rw [List.forall_mem_cons, and_true]

end Checks

end Screencast
