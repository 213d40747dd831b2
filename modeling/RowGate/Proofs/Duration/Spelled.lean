import RowGate.Duration.Spelled
import RowGate.Proofs.Outcome

/-! # Spelled durations stay in range

A total of terms is only ever made by adding, and adding refuses what a duration cannot hold. So
whatever is read, the total stays below the bound of durations from one character to the next.
-/
namespace RowGate.Duration.Spelled
variable {s s' : State} {total n : Nat}

theorem add_lt {grain : Grain} {count : Nat} (h : add total grain count = .ok n) : n < bound := by
  unfold add at h
  extract_lets carried at h
  split at h
  · next hfits =>
    cases h
    exact hfits.2
  · split at h <;> cases h

theorem addTerm_lt {a : Amount} {name : List Char} (h : addTerm total a name = .ok n) :
    n < bound := by
  unfold addTerm at h
  split at h
  · split at h <;> cases h
  · obtain ⟨count, -, h⟩ := bind_eq_ok_iff.mp h
    obtain ⟨whole, hwhole, h⟩ := bind_eq_ok_iff.mp h
    split at h
    · cases h
      exact add_lt hwhole
    · split at h
      · cases h
      · obtain ⟨part, -, h⟩ := bind_eq_ok_iff.mp h
        exact add_lt h

/-- A character leaves the total in range. It changes only where a term ends. -/
theorem step_total_lt {offset next : Nat} {c : Char} (hs : s.total < bound)
    (h : step s offset next c = .ok s') : s'.total < bound := by
  obtain ⟨phase, total⟩ := s
  cases phase with
  | lead origin fresh =>
    simp only [step] at h
    split at h
    · cases h; exact hs
    split at h
    · cases h; exact hs
    · cases h
  | whole k =>
    simp only [step] at h
    split at h
    · obtain ⟨m, -, h⟩ := bind_eq_ok_iff.mp h
      cases h; exact hs
    split at h
    · cases h; exact hs
    split at h
    · cases h; exact hs
    split at h
    · cases h; exact hs
    · cases h
  | fraction k num den good =>
    simp only [step] at h
    split at h
    · obtain ⟨den, -, h⟩ := bind_eq_ok_iff.mp h
      obtain ⟨num, -, h⟩ := bind_eq_ok_iff.mp h
      cases h; exact hs
    split at h
    · cases h; exact hs
    split at h
    · cases h; exact hs
    · cases h
  | unit a name =>
    simp only [step] at h
    split at h
    · obtain ⟨total, htotal, h⟩ := bind_eq_ok_iff.mp h
      cases h; exact addTerm_lt htotal
    split at h
    · obtain ⟨total, htotal, h⟩ := bind_eq_ok_iff.mp h
      cases h; exact addTerm_lt htotal
    split at h
    · cases h; exact hs
    · cases h

theorem finish_lt (hs : s.total < bound) (h : finish s = .ok n) : n < bound := by
  unfold finish at h
  split at h
  · split at h
    · cases h
    · cases h; exact hs
  · exact addTerm_lt h
  · split at h
    · cases h
    · exact addTerm_lt h
  · exact addTerm_lt h

theorem run_lt {cs : List Char} {offset : Nat} (hs : s.total < bound)
    (h : run s offset cs = .ok n) : n < bound := by
  induction cs generalizing s offset with
  | nil => exact finish_lt hs h
  | cons c cs ih =>
    obtain ⟨s', hstep, hrest⟩ := bind_eq_ok_iff.mp h
    exact ih (step_total_lt hs hstep) hrest

/-- What is read is a duration. -/
theorem nanos_lt {cs : List Char} (h : nanos cs = .ok n) : n < bound := by
  unfold nanos at h
  split at h
  · cases h; decide
  · exact run_lt (by decide) h

end RowGate.Duration.Spelled
