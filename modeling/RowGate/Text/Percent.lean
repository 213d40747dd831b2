import RowGate.Text.Digits
import RowGate.Text.Utf8

/-! # Percent signs

A percent sign with two hexadecimal digits stands for one octet, which is how a URL writes
octets that it may not show. In the fields of a query a plus sign stands for a space as well,
and octets that are no text are replaced.
-/
namespace RowGate.Text

def hexValue? (c : Char) : Option Nat :=
  if Digits.isDigit c then some (c.toNat - 48)
  else if 'a' ≤ c && c ≤ 'f' then some (c.toNat - 87)
  else if 'A' ≤ c && c ≤ 'F' then some (c.toNat - 55)
  else none

def isHexDigit (c : Char) : Bool := (hexValue? c).isSome

/-- The octets that a text stands for; a percent sign without two digits stands for itself. -/
def percentDecoded : List Char → Octets
  | '%' :: a :: b :: rest =>
    match hexValue? a, hexValue? b with
    | some x, some y => UInt8.ofNat (16 * x + y) :: percentDecoded rest
    | _, _ => Utf8.encode ['%'] ++ percentDecoded (a :: b :: rest)
  | c :: rest => Utf8.encode [c] ++ percentDecoded rest
  | [] => []

def upperHexDigit (n : Nat) : Char := if n < 10 then Char.ofNat (48 + n) else Char.ofNat (55 + n)

def percentOctet (b : UInt8) : List Char :=
  ['%', upperHexDigit (b.toNat / 16), upperHexDigit (b.toNat % 16)]

/-- The text with its control characters and what is not ASCII written by octets. -/
def percentEncoded (s : List Char) : List Char :=
  s.flatMap fun c =>
    if 0x20 ≤ c.toNat && c.toNat < 0x7F then [c] else (Utf8.encode [c]).flatMap percentOctet

/-- The text that the name or the value of a query's field stands for. -/
def fieldText (s : List Char) : String :=
  String.ofList (Utf8.lossy (percentDecoded (s.map fun c => if c = '+' then ' ' else c)))

end RowGate.Text
