import RowGate.Proofs.Duration.Text
import RowGate.Service.Lifetime

/-! # Lifetimes are exact

A text that is accepted as a lifetime is a sequence of terms, of which there is only one, and the
lifetime is their sum, which a duration can hold. Terms without fractions that have such a sum are
accepted, and so is the text in which durations are shown.
-/
namespace RowGate.Service
open Duration.Spelled

/-- A lifetime is what is read of the trimmed text, unless that is zero. -/
theorem lifetime_eq_ok_iff {input : String} {d : Duration} :
    lifetime input = some (.ok d) ↔
      nanos (Text.trimmed input.toList) = .ok d.nanos ∧ 0 < d.nanos := by
  unfold lifetime
  cases hread : nanos (Text.trimmed input.toList) with
  | error why => cases why <;> simp [Fault.isTold]
  | ok n =>
    simp only [Duration.ofNanos?, dif_pos (nanos_lt hread), Duration.isZero, beq_iff_eq]
    by_cases hn : n = 0
    · rw [if_pos hn]
      constructor
      · nofun
      · rintro ⟨heq, hpositive⟩
        have hzero : n = d.nanos := Except.ok.inj heq
        omega
    · rw [if_neg hn]
      constructor
      · intro h
        cases h
        exact ⟨rfl, Nat.pos_of_ne_zero hn⟩
      · rintro ⟨heq, -⟩
        obtain rfl : n = d.nanos := Except.ok.inj heq
        rfl

/-- A lifetime is the exact sum of the terms that its text spells, and of countable terms every
text that spells them is accepted. -/
theorem lifetime_exact (input : String) :
    (∀ d, lifetime input = some (.ok d) →
      ∃ ts, ts ≠ [] ∧ Spells ts (Text.trimmed input.toList) ∧
        (∀ ts', Spells ts' (Text.trimmed input.toList) → ts' = ts) ∧
        (d.nanos : ℚ) = sum ts ∧ 0 < d.nanos ∧ d.nanos < wordBound 64 * nanosPerSecond) ∧
    ∀ ts, ts ≠ [] → Countable ts → 0 < sum ts → Spells ts input.toList →
      ∃ d, lifetime input = some (.ok d) ∧ (d.nanos : ℚ) = sum ts := by
  constructor
  · intro d h
    obtain ⟨hread, hpositive⟩ := lifetime_eq_ok_iff.mp h
    obtain ⟨ts, hne, hspells, hsum⟩ := spells_of_nanos hread (Nat.ne_of_gt hpositive)
    exact ⟨ts, hne, hspells, fun ts' h' => h'.unique hspells, hsum, hpositive, d.inRange⟩
  · intro ts hne hcountable hpositive hspells
    obtain ⟨n, hread, hn⟩ := hcountable.nanos hne (hspells.trimmed hne)
    have hn0 : 0 < n := by
      rw [← hn] at hpositive
      exact Nat.cast_pos.mp hpositive
    exact ⟨⟨n, nanos_lt hread⟩, lifetime_eq_ok_iff.mpr ⟨hread, hn0⟩, hn⟩

def ninetyMinutes : List Term := [⟨⟨1, none⟩, ['h'], hour⟩, ⟨⟨30, none⟩, ['m'], minute⟩]

theorem sum_ninetyMinutes : sum ninetyMinutes = (5400 * nanosPerSecond : Nat) := by
  have hhour : hour.nanos = 3600000000000 := rfl
  have hminute : minute.nanos = 60000000000 := rfl
  simp only [ninetyMinutes, sum_cons, sum_nil, Term.nanos_of_whole, hhour, hminute, nanosPerSecond]
  norm_num

theorem countable_ninetyMinutes : Countable ninetyMinutes := by
  refine ⟨by decide, ?_, ?_⟩
  · have hlong : ∀ t ∈ ninetyMinutes, ¬ t.unit.nanos < nanosPerSecond := by decide
    exact fun t ht hshort => absurd hshort (hlong t ht)
  · rw [sum_ninetyMinutes]
    exact Nat.cast_lt.mpr (by decide)

theorem spells_ninetyMinutes : Spells ninetyMinutes " 1h 3 0m".toList := by
  have hone : SpellsNumber ⟨Digits.read 0 ['1'], none⟩ ['1'] := .whole (by decide) spread_nil
  have hthirty : SpellsNumber ⟨Digits.read 0 ['3', '0'], none⟩ ['3', ' ', '0'] :=
    .whole (by decide) ⟨List.all_eq_true.mp (by decide), rfl⟩
  have hspace : Blank [' '] := by
    intro c hc
    rw [List.mem_singleton.mp hc]
    decide
  refine ⟨[[' ', '1', 'h'], [' ', '3', ' ', '0', 'm']], [], ?_, blank_nil, rfl⟩
  exact .cons (.mk hspace hone rfl) (.cons (.mk hspace hthirty rfl) .nil)

theorem lifetime_exact_ninety_minutes :
    ∃ d, lifetime " 1h 3 0m" = some (.ok d) ∧ d.nanos = 5400 * nanosPerSecond ∧
      ∃ ts, ts ≠ [] ∧ Spells ts (Text.trimmed " 1h 3 0m".toList) ∧ (d.nanos : ℚ) = sum ts := by
  have hpositive : 0 < sum ninetyMinutes := by
    rw [sum_ninetyMinutes]
    exact Nat.cast_pos.mpr (by decide)
  obtain ⟨d, hd, hsum⟩ := (lifetime_exact " 1h 3 0m").2 ninetyMinutes (List.cons_ne_nil _ _)
    countable_ninetyMinutes hpositive spells_ninetyMinutes
  obtain ⟨ts, hne, hspells, -, hterms, -, -⟩ := (lifetime_exact " 1h 3 0m").1 d hd
  rw [sum_ninetyMinutes] at hsum
  exact ⟨d, hd, Nat.cast_injective hsum, ts, hne, hspells, hterms⟩

/-- A duration is the lifetime that its text spells. -/
theorem lifetime_text (d : Duration) (h : 0 < d.nanos) : lifetime d.text = some (.ok d) := by
  refine lifetime_eq_ok_iff.mpr ⟨?_, h⟩
  rw [Duration.text, String.toList_ofList]
  exact d.nanos_trimmed_chars

theorem lifetime_text_longest :
    lifetime "18446744073709551615.999999999s" = some (.ok ⟨Duration.bound - 1, by decide⟩) := by
  have htext : (⟨Duration.bound - 1, by decide⟩ : Duration).text =
      "18446744073709551615.999999999s" := by
    decide +kernel
  rw [← htext]
  exact lifetime_text ⟨Duration.bound - 1, by decide⟩ (by decide)

end RowGate.Service
