/-! # Pieces between separators

A text falls into the pieces between its separators, empty ones included, and is those pieces
with the separators put back.
-/
namespace RowGate.Text

/-- The pieces between separators, one more than there are separators. -/
def split (sep : Char) : List Char → List (List Char)
  | [] => [[]]
  | c :: rest =>
    if c = sep then [] :: split sep rest
    else match split sep rest with
      | [] => [[c]]
      | p :: ps => (c :: p) :: ps

theorem split_ne_nil (sep : Char) (s : List Char) : split sep s ≠ [] := by
  cases s with
  | nil => simp [split]
  | cons c rest =>
    rw [split]
    split
    · simp
    · split <;> simp

end RowGate.Text
