import RowGate.Text.Digits
import RowGate.Width

/-! # Durations

A duration is a count of nanoseconds below 2^64 seconds. Its text uses the largest of
the units second, millisecond, microsecond and nanosecond that fits into it, with the
remainder as a decimal fraction without trailing zeros.
-/
namespace RowGate

/-- Nanoseconds in one second. -/
def nanosPerSecond : Nat := 1000000000

/-- The first count of nanoseconds that is no duration: 2^64 seconds. -/
def Duration.bound : Nat := wordBound 64 * nanosPerSecond

structure Duration where
  nanos : Nat
  inRange : nanos < Duration.bound := by decide
  deriving DecidableEq

namespace Duration

def ofNanos? (n : Nat) : Option Duration := if h : n < bound then some ⟨n, h⟩ else none

def zero : Duration := ⟨0, by decide⟩

/-- A whole number of seconds, from a 64-bit count. -/
def ofSeconds (s : Nat) (h : s < wordBound 64) : Duration :=
  ⟨s * nanosPerSecond, Nat.mul_lt_mul_of_pos_right h (by decide)⟩

def seconds (d : Duration) : Nat := d.nanos / nanosPerSecond
def subsecond (d : Duration) : Nat := d.nanos % nanosPerSecond
def millis (d : Duration) : Nat := d.nanos / 1000000
def isZero (d : Duration) : Bool := d.nanos == 0

instance : Inhabited Duration := ⟨zero⟩

/-- Length of a display unit in nanoseconds, digits of its fraction, and its name. -/
structure DisplayUnit where
  nanos : Nat
  places : Nat
  name : String

def displayUnit (d : Duration) : DisplayUnit :=
  if nanosPerSecond ≤ d.nanos then ⟨nanosPerSecond, 9, "s"⟩
  else if 1000000 ≤ d.nanos then ⟨1000000, 6, "ms"⟩
  else if 1000 ≤ d.nanos then ⟨1000, 3, "µs"⟩
  else ⟨1, 0, "ns"⟩

/-- A fraction of so many places after its point, trailing zeros and an empty fraction dropped. -/
def fractionText (places n : Nat) : List Char :=
  match ((Digits.padded places n).reverse.dropWhile (· == '0')).reverse with
  | [] => []
  | c :: rest => '.' :: c :: rest

def chars (d : Duration) : List Char :=
  let u := d.displayUnit
  Digits.write (d.nanos / u.nanos) ++ fractionText u.places (d.nanos % u.nanos) ++ u.name.toList

def text (d : Duration) : String := String.ofList d.chars

end Duration
end RowGate
