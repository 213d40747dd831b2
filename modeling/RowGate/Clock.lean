import RowGate.Duration

/-! # Instants

An instant is a count of nanoseconds from the start of a monotonic clock. The clock
counts seconds in 63 bits, so an instant too far ahead cannot be expressed.
-/
namespace RowGate

abbrev Instant := Nat

namespace Instant

/-- The first count that the clock cannot express. -/
def bound : Nat := wordBound 63 * nanosPerSecond

/-- The instant a duration later, if the clock can express it. -/
def after? (t : Instant) (d : Duration) : Option Instant :=
  if t + d.nanos < bound then some (t + d.nanos) else none

/-- The first instant of a clock with a given tick that does not come before `t`. -/
def nextTick (tick : Nat) (t : Instant) : Instant := (t + (tick - 1)) / tick * tick

theorem nextTick_add_mod (tick t : Nat) :
    nextTick tick t + (t + (tick - 1)) % tick = t + (tick - 1) := by
  have h := Nat.div_add_mod (t + (tick - 1)) tick
  rwa [Nat.mul_comm] at h

theorem le_nextTick {tick : Nat} (h : 0 < tick) (t : Nat) : t ≤ nextTick tick t := by
  have hs := nextTick_add_mod tick t
  have hm := Nat.mod_lt (t + (tick - 1)) h
  generalize (t + (tick - 1)) % tick = r at hs hm
  exact (show ∀ u : Nat, u + r = t + (tick - 1) → t ≤ u by omega) _ hs

theorem after?_eq_some {t u : Instant} {d : Duration} :
    after? t d = some u ↔ t + d.nanos < bound ∧ u = t + d.nanos := by
  unfold after?
  split
  · simp_all [eq_comm]
  · next h => simp [h]

end Instant
end RowGate
