/-! # Decimal digits

Naturals are written without leading zeros. A run of digits is read as a natural of
any size; what fits a width is a separate question.
-/
namespace RowGate.Digits

def isDigit (c : Char) : Bool := '0' ≤ c && c ≤ '9'

def value (c : Char) : Nat := c.toNat - '0'.toNat

def ofValue (n : Nat) : Char := Char.ofNat ('0'.toNat + n)

/-- Digits read from the most significant end, after those that gave `acc`. -/
def read (acc : Nat) (s : List Char) : Nat := s.foldl (fun n c => 10 * n + value c) acc

/-- The digits of a natural, most significant first. -/
def write (n : Nat) : List Char :=
  if n < 10 then [ofValue n] else write (n / 10) ++ [ofValue (n % 10)]

def text (n : Nat) : String := String.ofList (write n)

/-- One or more digits and nothing else. -/
def natural? (s : List Char) : Option Nat :=
  if s.isEmpty then none else if s.all isDigit then some (read 0 s) else none

/-- Exactly `width` digits, with leading zeros, for a value below `10 ^ width`. -/
def padded : (width : Nat) → Nat → List Char
  | 0, _ => []
  | width + 1, n => padded width (n / 10) ++ [ofValue (n % 10)]

end RowGate.Digits
