import Mathlib.Data.List.TakeWhile
import RowGate.Proofs.Duration.Unique

/-! # The text of a duration spells it

The text of a duration is one term. Its fraction has so many places as the unit is long, less the
zeros at its end, so it comes out even in nanoseconds, and the term is read as the duration it was
written for, up to the longest one.
-/
namespace RowGate.Duration
open Spelled

theorem exists_zeros (s : List Char) :
    ∃ k, s = (s.reverse.dropWhile (· == '0')).reverse ++ List.replicate k '0' := by
  have hzeros : ∀ c ∈ s.reverse.takeWhile (· == '0'), c = '0' := by
    intro c hc
    have hzero := List.mem_takeWhile_imp hc
    exact eq_of_beq hzero
  have hsplit := congrArg List.reverse
    (List.takeWhile_append_dropWhile (p := (· == '0')) (l := s.reverse))
  rw [List.reverse_append, List.reverse_reverse, List.eq_replicate_of_mem hzeros,
    List.reverse_replicate] at hsplit
  exact ⟨_, hsplit.symm⟩

/-- The fraction is what is left of a unit, over a power of ten that divides the unit. -/
theorem fractionText_cases {places n : Nat} (h : n < 10 ^ places) :
    (n = 0 ∧ fractionText places n = []) ∨
      ∃ fs k, fractionText places n = '.' :: fs ∧ fs ≠ [] ∧ (∀ c ∈ fs, Digits.isDigit c = true) ∧
        places = fs.length + k ∧ n = Digits.read 0 fs * 10 ^ k := by
  obtain ⟨k, hk⟩ := exists_zeros (Digits.padded places n)
  have hvalue := Digits.read_padded h
  have hlength := Digits.length_padded places n
  have hdigits := Digits.isDigit_padded places n
  unfold fractionText
  generalize ((Digits.padded places n).reverse.dropWhile (· == '0')).reverse = fs at hk
  rw [hk] at hvalue hlength hdigits
  rw [Digits.read_append_zeros] at hvalue
  rw [List.length_append, List.length_replicate] at hlength
  cases fs with
  | nil =>
    rw [Digits.read, List.foldl_nil, Nat.zero_mul] at hvalue
    exact .inl ⟨hvalue.symm, rfl⟩
  | cons c fs =>
    exact .inr ⟨c :: fs, k, rfl, List.cons_ne_nil c fs,
      fun d hd => hdigits d (List.mem_append_left _ hd), hlength.symm, hvalue.symm⟩

structure DisplayUnit.Names (v : DisplayUnit) (u : TimeUnit) : Prop where
  named : unit? v.name = some u
  nanos : u.nanos = v.nanos
  places : 10 ^ v.places = v.nanos
  fraction : 0 < v.places → u.fraction = some (.nanosecond, v.nanos)
  short : v.nanos ≤ nanosPerSecond

theorem exists_names (d : Duration) : ∃ u, d.displayUnit.Names u := by
  unfold displayUnit
  split
  · exact ⟨second, rfl, rfl, rfl, fun _ => rfl, by decide⟩
  split
  · exact ⟨millisecond, rfl, rfl, rfl, fun _ => rfl, by decide⟩
  split
  · exact ⟨microsecond, rfl, rfl, rfl, fun _ => rfl, by decide⟩
  · exact ⟨nanosecond, rfl, rfl, rfl, nofun, by decide⟩

/-- A unit below a second is only shown where the duration is below a second. -/
theorem lt_of_displayUnit (d : Duration) (h : d.displayUnit.nanos < nanosPerSecond) :
    d.nanos < nanosPerSecond := by
  by_contra hge
  rw [displayUnit, if_pos (Nat.not_lt.mp hge)] at h
  exact Nat.lt_irrefl _ h

theorem spread_digits {ds : List Char} (h : ∀ c ∈ ds, Digits.isDigit c = true) : Spread ds ds := by
  refine ⟨h, List.filter_eq_self.mpr fun c hc => ?_⟩
  rw [Text.not_blank_of_isDigit (h c hc)]
  rfl

theorem spells_write (k : Nat) : SpellsNumber ⟨k, none⟩ (Digits.write k) := by
  obtain ⟨d, ds, hwrite, hd, hds, rfl⟩ := Digits.exists_write k
  rw [hwrite]
  exact .whole hd (spread_digits hds)

theorem spells_decimal (k : Nat) {fs : List Char} (hne : fs ≠ [])
    (hfs : ∀ c ∈ fs, Digits.isDigit c = true) :
    SpellsNumber ⟨k, some (Digits.read 0 fs, 10 ^ fs.length)⟩ (Digits.write k ++ '.' :: fs) := by
  obtain ⟨d, ds, hwrite, hd, hds, rfl⟩ := Digits.exists_write k
  rw [hwrite]
  exact .decimal hd (spread_digits hds) (spread_digits hfs) hne

theorem exactly_of_mul {num den part : Nat} (hden : 0 < den) (hnum : num = part * den)
    (hfits : num < wordBound 64) : exactly num den = .ok part := by
  obtain rfl := hnum
  rw [exactly, if_pos ⟨hfits, Nat.mul_mod_left part den⟩, Nat.mul_div_cancel _ hden]

theorem two_seconds_le : 2 * nanosPerSecond ≤ wordBound 64 := by decide

theorem add_nanoseconds {total count : Nat} (hcount : count < nanosPerSecond)
    (hsum : total + count < bound) : add total .nanosecond count = .ok (total + count) := by
  have hcarried : total % nanosPerSecond + count < wordBound 64 := by
    have hlt : total % nanosPerSecond < nanosPerSecond := Nat.mod_lt _ (by decide)
    have htwo := two_seconds_le
    omega
  simp only [add, Grain.nanos, Nat.mul_one]
  rw [if_pos ⟨hcarried, hsum⟩]

section Parts
variable {v : DisplayUnit} {u : TimeUnit} {q r : Nat}

/-- A fraction of a unit comes out even. -/
theorem DisplayUnit.Names.exactly {fs : List Char} {k : Nat} (hu : v.Names u) (hr : r < v.nanos)
    (hplaces : v.places = fs.length + k) (hvalue : r = Digits.read 0 fs * 10 ^ k) :
    10 ^ fs.length ≤ nanosPerSecond ∧
      Spelled.exactly (Digits.read 0 fs * v.nanos) (10 ^ fs.length) = .ok r := by
  have hsize : v.nanos = 10 ^ k * 10 ^ fs.length := by
    rw [← hu.places, hplaces, Nat.add_comm, Nat.pow_add]
  have hden : 10 ^ fs.length ≤ nanosPerSecond := by
    refine Nat.le_trans ?_ hu.short
    rw [hsize]
    exact Nat.le_mul_of_pos_left _ (Nat.pow_pos (by decide))
  have hproduct : Digits.read 0 fs * v.nanos = r * 10 ^ fs.length := by
    rw [hvalue, hsize, Nat.mul_assoc]
  refine ⟨hden, exactly_of_mul (Nat.pow_pos (by decide)) hproduct ?_⟩
  calc Digits.read 0 fs * v.nanos
      = r * 10 ^ fs.length := hproduct
    _ ≤ nanosPerSecond * nanosPerSecond :=
      Nat.mul_le_mul (Nat.le_of_lt (Nat.lt_of_lt_of_le hr hu.short)) hden
    _ < wordBound 64 := by decide

/-- Whole units and a remainder below the unit are written as one term, which adds just them. -/
theorem DisplayUnit.Names.exists_term (hu : v.Names u) (hr : r < v.nanos)
    (hsum : q * v.nanos + r < bound)
    (hfine : v.nanos < nanosPerSecond → q * v.nanos + nanosPerSecond ≤ wordBound 64) :
    ∃ t : Term, t.Written (Digits.write q ++ fractionText v.places r ++ v.name.toList) ∧
      t.amount.Fits ∧ addTerm 0 t.amount t.name = .ok (q * v.nanos + r) := by
  have hname : unit? (String.ofList v.name.toList) = some u := by
    rw [String.ofList_toList]
    exact hu.named
  have hproper := proper_of_unit? hname
  rw [← hu.nanos] at hsum hfine
  have hwhole : q * u.nanos < bound := Nat.lt_of_le_of_lt (Nat.le_add_right _ r) hsum
  have hbase : 0 + q * u.nanos < bound := by rwa [Nat.zero_add]
  have hcount : q < wordBound 64 :=
    Nat.lt_of_le_of_lt (Nat.le_mul_of_pos_right q hproper.positive) (count_lt hproper hwhole hfine)
  have hlast : r < 10 ^ v.places := by rwa [hu.places]
  rw [← hu.nanos]
  rcases fractionText_cases hlast with ⟨rfl, htext⟩ | ⟨fs, k, htext, hne, hfs, hplaces, hvalue⟩
  · rw [htext, List.append_nil]
    refine ⟨_, .mk blank_nil (spells_write q) hname, ⟨hcount, nofun⟩, ?_⟩
    rw [addTerm_of_whole hname hbase hfine, Nat.zero_add, Nat.add_zero]
  · obtain ⟨hden, hpart⟩ := hu.exactly hr hplaces hvalue
    rw [htext]
    have hplace : 0 < v.places := by
      have hlength := List.length_pos_of_ne_nil hne
      omega
    have htwo := two_seconds_le
    refine ⟨_, .mk blank_nil (spells_decimal q hne hfs) hname, ⟨hcount, ?_⟩,
      addTerm_of_decimal hname hbase hfine (hu.fraction hplace) hpart ?_⟩
    · rintro f hf
      cases hf
      change 10 ^ fs.length < wordBound 64
      omega
    · have htotal : 0 + q * u.nanos + r < bound := by rwa [Nat.zero_add]
      rw [add_nanoseconds (Nat.lt_of_lt_of_le hr hu.short) htotal, Nat.zero_add]

end Parts

/-- The text of a duration is a term, which adds just the duration. -/
theorem exists_term (d : Duration) : ∃ t : Term, t.Written d.chars ∧ t.amount.Fits ∧
    addTerm 0 t.amount t.name = .ok d.nanos := by
  obtain ⟨u, hu⟩ := exists_names d
  have hpositive : 0 < d.displayUnit.nanos := hu.places ▸ Nat.pow_pos (by decide)
  have hparts : d.nanos / d.displayUnit.nanos * d.displayUnit.nanos +
      d.nanos % d.displayUnit.nanos = d.nanos := Nat.div_add_mod' ..
  have htwo := two_seconds_le
  have hterm := hu.exists_term (Nat.mod_lt d.nanos hpositive) (hparts.symm ▸ d.inRange) fun hsmall => by
    have hlt := lt_of_displayUnit d hsmall
    omega
  rwa [hparts] at hterm

/-- The text of a duration is read as the duration. -/
theorem nanos_trimmed_chars (d : Duration) :
    Spelled.nanos (RowGate.Text.trimmed d.chars) = .ok d.nanos := by
  obtain ⟨t, hwritten, hfits, hadd⟩ := exists_term d
  have hne := List.cons_ne_nil t []
  have hspells : Spells [t] d.chars :=
    ⟨[d.chars], [], .cons hwritten .nil, blank_nil, by simp⟩
  refine nanos_of_spells hne (hspells.trimmed hne) (List.forall_mem_singleton.mpr hfits) ?_
  exact bind_eq_ok_iff.mpr ⟨_, hadd, rfl⟩

end RowGate.Duration
