/-! # Widths

A natural fits so many bits when it is below the bound of that width.
-/
namespace RowGate

/-- The first natural that does not fit so many bits. -/
def wordBound (bits : Nat) : Nat := Nat.pow 2 bits

theorem wordBound_pos (bits : Nat) : 0 < wordBound bits := Nat.pow_pos (by decide)

/-- Naturals of so many bits. -/
abbrev Word (bits : Nat) := Fin (wordBound bits)

end RowGate
