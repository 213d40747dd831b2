/-! # Sets of code points

A property of characters is kept as a list of closed intervals of code points.
Membership is one pass over the list, so a table can be read as well as run.
-/
namespace RowGate.Text

abbrev CodeRange := Nat × Nat

def CodeRange.covers (r : CodeRange) (n : Nat) : Bool := r.1 ≤ n && n ≤ r.2

/-- A character has the property of a table when one of the intervals covers it. -/
def inRanges (table : List CodeRange) (c : Char) : Bool := table.any (·.covers c.toNat)

theorem inRanges_iff (table : List CodeRange) (c : Char) :
    inRanges table c = true ↔ ∃ r ∈ table, r.1 ≤ c.toNat ∧ c.toNat ≤ r.2 := by
  simp [inRanges, CodeRange.covers, List.any_eq_true]

end RowGate.Text
