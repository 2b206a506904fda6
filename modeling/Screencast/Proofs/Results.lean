/-!
# Computations that can fail

What is known of the parts of a computation in `Except` when the whole of it succeeds or fails: of two
parts one after the other, of errors that are given another form, and of the same part for every element
of a list.
-/

namespace Screencast

variable {α β ε ε' : Type}

/-- A computation succeeds only if each of its steps does. -/
theorem exists_of_bind_eq_ok {x : Except ε α} {f : α → Except ε β} {b : β} (h : x >>= f = .ok b) :
    ∃ a, x = .ok a ∧ f a = .ok b := by
  cases x with
  | error error => cases h
  | ok a => exact ⟨a, rfl, h⟩

section

variable {form : ε → ε'} {made : Except ε α}

theorem mapError_eq_ok_iff {value : α} : made.mapError form = .ok value ↔ made = .ok value := by
  cases made with
  | error error =>
      constructor
      · intro h
        cases h
      · intro h
        cases h
  | ok other =>
      constructor
      · intro h
        cases h
        rfl
      · intro h
        cases h
        rfl

theorem mapError_eq_error_iff {error : ε'} :
    made.mapError form = .error error ↔ ∃ cause, made = .error cause ∧ form cause = error := by
  cases made with
  | error cause =>
      constructor
      · intro h
        cases h
        exact ⟨cause, rfl, rfl⟩
      · rintro ⟨_, hcause, rfl⟩
        cases hcause
        rfl
  | ok value =>
      constructor
      · intro h
        cases h
      · rintro ⟨_, hcause, -⟩
        cases hcause

end

/-- What a function gives for the elements of a list is what it gives for each of them. -/
theorem getElem?_of_mapM {f : α → Except ε β} {xs : List α} {ys : List β} (h : xs.mapM f = .ok ys) :
    ys.length = xs.length ∧ ∀ (k : Nat) x, xs[k]? = some x → ∃ y, ys[k]? = some y ∧ f x = .ok y := by
  induction xs generalizing ys with
  | nil =>
      cases h
      exact ⟨rfl, fun k x hx => nomatch hx⟩
  | cons x rest ih =>
      rw [List.mapM_cons] at h
      obtain ⟨y, hx, h⟩ := exists_of_bind_eq_ok h
      obtain ⟨others, hrest, h⟩ := exists_of_bind_eq_ok h
      cases h
      obtain ⟨hlength, hothers⟩ := ih hrest
      refine ⟨by rw [List.length_cons, List.length_cons, hlength], fun k z hz => ?_⟩
      cases k with
      | zero =>
          cases hz
          exact ⟨y, rfl, hx⟩
      | succ k => exact hothers k z hz

end Screencast
