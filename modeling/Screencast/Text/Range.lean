/-!
# Sets of code points

A class of characters is given by the closed ranges of code points it consists of, in increasing
order.  The tables of this folder are lists of such ranges.
-/

namespace Screencast.Text

/-- The code points from the first to the last component. -/
abbrev Range := Nat × Nat

/-- Membership in one of the ranges. -/
def inRanges (table : List Range) (code : Nat) : Bool :=
  table.any fun r => r.1 ≤ code && code ≤ r.2

theorem inRanges_iff {table : List Range} {code : Nat} :
    inRanges table code = true ↔ ∃ r ∈ table, r.1 ≤ code ∧ code ≤ r.2 := by
  simp [inRanges]

end Screencast.Text
