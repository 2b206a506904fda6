/-!
# Slices with signed positions

A position counts from the start when it is not negative and from the end otherwise, and a position
outside the list means its nearest end.  `upTo` and `since` are the two halves of a slice; lemmas
say when they are `List.take` and `List.drop`.
-/

namespace Screencast.Text

variable {α : Type}

/-- The place in a list of the given length that a signed position means. -/
def place (length : Nat) (position : Int) : Nat :=
  if position < 0 then (length + position).toNat else min position.toNat length

/-- The elements before a position. -/
def upTo (stop : Int) (xs : List α) : List α := xs.take (place xs.length stop)

/-- The elements from a position on. -/
def since (start : Int) (xs : List α) : List α := xs.drop (place xs.length start)

/-- The elements from one position to before another. -/
def slice (start stop : Int) (xs : List α) : List α :=
  (xs.take (place xs.length stop)).drop (place xs.length start)

theorem place_of_nonneg (length : Nat) {position : Int} (h : 0 ≤ position) :
    place length position = min position.toNat length := by
  simp [place, Int.not_lt.mpr h]

theorem upTo_of_nonneg (xs : List α) {stop : Int} (h : 0 ≤ stop) :
    upTo stop xs = xs.take stop.toNat := by
  simp [upTo, place_of_nonneg _ h, List.take_eq_take_iff]

/-- Up to so many elements before the end, unless they are none. -/
theorem upTo_neg (xs : List α) {count : Nat} (h : 0 < count) :
    upTo (-count) xs = xs.take (xs.length - count) := by
  have hnegative : -(count : Int) < 0 := by omega
  have hplace : place xs.length (-count) = xs.length - count := by
    rw [place, if_pos hnegative]
    omega
  rw [upTo, hplace]

/-- Up to so many elements before the end, as far as there are any. -/
theorem upTo_max_zero_sub (xs : List α) (count : Nat) :
    upTo (max 0 ((xs.length : Int) - count)) xs = xs.take (xs.length - count) := by
  have hplace : (max 0 ((xs.length : Int) - count)).toNat = xs.length - count := by omega
  rw [upTo_of_nonneg xs (Int.le_max_left ..), hplace]

theorem since_of_nonneg (xs : List α) {start : Int} (h : 0 ≤ start) :
    since start xs = xs.drop start.toNat := by
  rw [since, place_of_nonneg _ h]
  by_cases hl : start.toNat ≤ xs.length
  · rw [Nat.min_eq_left hl]
  · have hl := Nat.le_of_not_le hl
    rw [Nat.min_eq_right hl, List.drop_eq_nil_of_le (Nat.le_refl _), List.drop_eq_nil_of_le hl]

end Screencast.Text
