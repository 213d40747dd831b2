import RowGate.Proofs.Duration.Terms

/-! # Which spelled durations are accepted

Terms are read one after the other, whatever state stands before the first of them, as long as
their numbers fit 64 bits and each can be added to the total of those before it. Terms without a
fraction can be added where their sum is a duration and none of those below a second comes too near
to 64 bits of nanoseconds.
-/
namespace RowGate.Duration.Spelled
open RowGate.Text

/-- From a state the text is read to its end, wherever in the whole it stands. -/
def Reads (s : State) (cs : List Char) (n : Nat) : Prop := ∀ offset, run s offset cs = .ok n

def EndsUnit (rest : List Char) : Prop :=
  ∀ c ∈ rest.head?, Digits.isDigit c = true ∨ isBlank c = true

section Characters
variable {c : Char}

theorem not_digit_of_blank (h : isBlank c = true) : Digits.isDigit c = false := by
  cases hc : Digits.isDigit c with
  | false => rfl
  | true =>
    rw [not_blank_of_isDigit hc] at h
    cases h

structure IsLetter (c : Char) : Prop where
  letter : isLetter c = true
  digit : Digits.isDigit c = false
  blank : isBlank c = false

theorem letters_of_unit? {name : List Char} {u : TimeUnit} (h : unit? (String.ofList name) = some u) :
    name ≠ [] ∧ ∀ c ∈ name, IsLetter c := by
  have table : (unitNames.all fun e => e.1.all fun n => !n.toList.isEmpty && n.toList.all fun c =>
      isLetter c && !Digits.isDigit c && !isBlank c) = true := by
    decide +kernel
  simp only [List.all_eq_true, Bool.and_eq_true, Bool.not_eq_true', List.isEmpty_eq_false_iff]
    at table
  obtain ⟨names, hnames, hmem⟩ := mem_unitNames_of_unit? h
  obtain ⟨hne, hletters⟩ := table _ hnames _ hmem
  rw [String.toList_ofList] at hne hletters
  exact ⟨hne, fun c hc => ⟨(hletters c hc).1.1, (hletters c hc).1.2, (hletters c hc).2⟩⟩

end Characters

section Numbers
variable {ds s : List Char}

theorem Spread.cases {c : Char} (h : Spread ds (c :: s)) :
    (isBlank c = true ∧ Spread ds s) ∨
      ∃ ds', ds = c :: ds' ∧ Digits.isDigit c = true ∧ Spread ds' s := by
  obtain ⟨hdigits, hbare⟩ := h
  cases hc : isBlank c with
  | true =>
    rw [List.filter_cons_of_neg (by rw [hc]; decide)] at hbare
    exact .inl ⟨rfl, hdigits, hbare⟩
  | false =>
    rw [List.filter_cons_of_pos (by rw [hc]; rfl)] at hbare
    obtain rfl := hbare
    have hall := List.forall_mem_cons.mp hdigits
    exact .inr ⟨_, rfl, hall.1, hall.2, rfl⟩

end Numbers

theorem word_of_lt {k : Nat} (h : k < wordBound 64) : word k = .ok k := if_pos h

section Phases
variable {s : State} {total n m k : Nat} {rest : List Char} {c : Char}

theorem reads_cons (h : ∀ offset next, ∃ s', step s offset next c = .ok s' ∧ Reads s' rest n) :
    Reads s (c :: rest) n := by
  intro offset
  obtain ⟨s', hstep, hrest⟩ := h offset (offset + c.utf8Size)
  exact bind_eq_ok_iff.mpr ⟨s', hstep, hrest _⟩

theorem reads_lead_blank {w : List Char} {origin : Nat} {fresh : Bool} (hw : Blank w)
    (h : Reads ⟨.lead origin fresh, total⟩ rest n) :
    Reads ⟨.lead origin fresh, total⟩ (w ++ rest) n := by
  induction w with
  | nil => exact h
  | cons c w ih =>
    obtain ⟨hc, hw⟩ := List.forall_mem_cons.mp hw
    refine reads_cons fun _ _ => ⟨_, ?_, ih hw⟩
    simp only [step, not_digit_of_blank hc, hc, if_true, Bool.false_eq_true, if_false]

theorem reads_lead_digit {origin : Nat} {fresh : Bool} (hc : Digits.isDigit c = true)
    (h : Reads ⟨.whole (Digits.value c), total⟩ rest n) :
    Reads ⟨.lead origin fresh, total⟩ (c :: rest) n :=
  reads_cons fun _ _ => ⟨_, if_pos hc, h⟩

theorem reads_whole {ds x : List Char} (hs : Spread ds x) (hfits : Digits.read k ds < wordBound 64)
    (h : Reads ⟨.whole (Digits.read k ds), total⟩ rest n) :
    Reads ⟨.whole k, total⟩ (x ++ rest) n := by
  induction x generalizing k ds with
  | nil =>
    obtain ⟨-, rfl⟩ := hs
    exact h
  | cons c x ih =>
    rcases hs.cases with ⟨hc, hs⟩ | ⟨ds, rfl, hc, hs⟩
    · refine reads_cons fun _ _ => ⟨_, ?_, ih hs hfits h⟩
      simp only [step, not_digit_of_blank hc, hc, if_true, Bool.false_eq_true, if_false]
    · have hword : 10 * k + Digits.value c < wordBound 64 :=
        Nat.lt_of_le_of_lt (Digits.le_read _ ds) hfits
      refine reads_cons fun _ _ => ⟨_, ?_, ih hs hfits h⟩
      simp only [step, hc, if_true, word_of_lt hword]
      rfl

theorem reads_fraction {fs x : List Char} {num den good : Nat} (hs : Spread fs x)
    (hden : den * 10 ^ fs.length < wordBound 64) (hnum : Digits.read num fs < wordBound 64)
    (h : ∀ good, Reads ⟨.fraction k (Digits.read num fs) (den * 10 ^ fs.length) good, total⟩ rest n) :
    Reads ⟨.fraction k num den good, total⟩ (x ++ rest) n := by
  induction x generalizing num den good fs with
  | nil =>
    obtain ⟨-, rfl⟩ := hs
    rw [List.filter_nil, List.length_nil, Nat.pow_zero, Nat.mul_one] at h
    exact h good
  | cons c x ih =>
    rcases hs.cases with ⟨hc, hs⟩ | ⟨fs, rfl, hc, hs⟩
    · refine reads_cons fun _ next => ⟨⟨.fraction k num den next, total⟩, ?_, ih hs hden hnum h⟩
      simp only [step, not_digit_of_blank hc, hc, if_true, Bool.false_eq_true, if_false]
    · have hpower : den * 10 ^ (c :: fs).length = 10 * den * 10 ^ fs.length := by
        rw [List.length_cons, Nat.pow_succ, Nat.mul_comm (10 ^ fs.length), ← Nat.mul_assoc,
          Nat.mul_comm den]
      rw [hpower] at hden h
      have hword : 10 * den < wordBound 64 :=
        Nat.lt_of_le_of_lt (Nat.le_mul_of_pos_right _ (Nat.pow_pos (by decide))) hden
      have hword' : 10 * num + Digits.value c < wordBound 64 :=
        Nat.lt_of_le_of_lt (Digits.le_read _ fs) hnum
      refine reads_cons fun _ next =>
        ⟨⟨.fraction k (10 * num + Digits.value c) (10 * den) next, total⟩, ?_, ih hs hden hnum h⟩
      simp only [step, hc, if_true, word_of_lt hword, word_of_lt hword']
      rfl

theorem reads_letters {a : Amount} {front name : List Char} (hname : ∀ c ∈ name, IsLetter c)
    (h : Reads ⟨.unit a (front ++ name), total⟩ rest n) :
    Reads ⟨.unit a front, total⟩ (name ++ rest) n := by
  induction name generalizing front with
  | nil =>
    rw [List.append_nil] at h
    exact h
  | cons c name ih =>
    obtain ⟨hc, hname⟩ := List.forall_mem_cons.mp hname
    rw [← List.singleton_append, ← List.append_assoc] at h
    refine reads_cons fun _ _ => ⟨_, ?_, ih hname h⟩
    simp only [step, hc.digit, hc.blank, hc.letter, if_true, Bool.false_eq_true, if_false]

/-- A unit that ends adds its term; what stands behind it is read as behind blanks. -/
theorem reads_unit {a : Amount} {name : List Char} (hadd : addTerm total a name = .ok m)
    (hrest : EndsUnit rest) (h : ∀ origin, Reads ⟨.lead origin false, m⟩ rest n) :
    Reads ⟨.unit a name, total⟩ rest n := by
  intro offset
  cases rest with
  | nil => exact hadd.trans (h 0 offset)
  | cons c rest =>
    have hlead := h (offset + c.utf8Size) offset
    rcases hrest c rfl with hc | hc
    · obtain ⟨s', hstep, hrun⟩ := bind_eq_ok_iff.mp hlead
      refine bind_eq_ok_iff.mpr ⟨s', ?_, hrun⟩
      simp only [step, hc, if_true, hadd] at hstep ⊢
      exact hstep
    · obtain ⟨s', hstep, hrun⟩ := bind_eq_ok_iff.mp hlead
      refine bind_eq_ok_iff.mpr ⟨s', ?_, hrun⟩
      simp only [step, not_digit_of_blank hc, hc, if_true, Bool.false_eq_true, if_false, hadd]
        at hstep ⊢
      exact hstep

end Phases

structure Amount.Fits (a : Amount) : Prop where
  whole : a.whole < wordBound 64
  fraction : ∀ f ∈ a.fraction, f.2 < wordBound 64

section Terms
variable {total n m : Nat} {rest : List Char}

/-- A number is read up to the unit behind it. -/
theorem reads_number {a : Amount} {x name : List Char} (hx : SpellsNumber a x) (hfits : a.Fits)
    (hne : name ≠ []) (hname : ∀ c ∈ name, IsLetter c) (h : Reads ⟨.unit a name, total⟩ rest n)
    (origin : Nat) (fresh : Bool) :
    Reads ⟨.lead origin fresh, total⟩ (x ++ (name ++ rest)) n := by
  obtain ⟨c, name, rfl⟩ := List.exists_cons_of_ne_nil hne
  obtain ⟨hc, hname⟩ := List.forall_mem_cons.mp hname
  have hletters : Reads ⟨.unit a [c], total⟩ (name ++ rest) n := reads_letters hname h
  cases hx with
  | @whole d ds x hd hs =>
    rw [Digits.read_zero_cons] at hfits hletters
    refine reads_lead_digit hd (reads_whole hs hfits.whole (reads_cons fun _ _ => ⟨_, ?_, hletters⟩))
    simp only [step, hc.digit, hc.blank, hc.letter, if_true, Bool.false_eq_true, if_false]
  | @decimal d ds x fs x' hd hs hf hfs =>
    have hden : 1 * 10 ^ fs.length < wordBound 64 := by
      rw [Nat.one_mul]
      exact hfits.fraction _ rfl
    have hnum : Digits.read 0 fs < wordBound 64 := Nat.lt_trans (Digits.read_lt 0 hf.digits) hden
    rw [Digits.read_zero_cons] at hfits hletters
    rw [List.cons_append, List.append_assoc, List.cons_append]
    refine reads_lead_digit hd (reads_whole hs hfits.whole (reads_cons fun offset _ =>
      ⟨⟨.fraction (Digits.read (Digits.value d) ds) 0 1 offset, total⟩, rfl, ?_⟩))
    refine reads_fraction hf hden hnum fun good => reads_cons fun _ _ => ⟨_, ?_, hletters⟩
    rw [Nat.one_mul]
    simp [step, hc.digit, hc.blank, hc.letter, hfs]

/-- A term is read whatever stands behind its unit, provided it can be added. -/
theorem Term.Written.reads {t : Term} {x : List Char} (ht : t.Written x) (hfits : t.amount.Fits)
    (hadd : addTerm total t.amount t.name = .ok m) (hrest : EndsUnit rest)
    (h : ∀ origin, Reads ⟨.lead origin false, m⟩ rest n) (origin : Nat) (fresh : Bool) :
    Reads ⟨.lead origin fresh, total⟩ (x ++ rest) n := by
  obtain ⟨hw, hx, hu⟩ := ht
  obtain ⟨hne, hname⟩ := letters_of_unit? hu
  rw [List.append_assoc, List.append_assoc]
  exact reads_lead_blank hw (reads_number hx hfits hne hname (reads_unit hadd hrest h) origin fresh)

theorem endsUnit_blank {w : List Char} (hw : Blank w) : EndsUnit w :=
  fun c hc => .inr (hw c (List.mem_of_mem_head? hc))

/-- A number starts with a digit. -/
theorem SpellsNumber.exists_cons {a : Amount} {s : List Char} (h : SpellsNumber a s) :
    ∃ d x, Digits.isDigit d = true ∧ s = d :: x := by
  cases h with
  | whole hd => exact ⟨_, _, hd, rfl⟩
  | decimal hd => exact ⟨_, _, hd, rfl⟩

theorem Term.Written.endsUnit {t : Term} {x : List Char} (ht : t.Written x) (rest : List Char) :
    EndsUnit (x ++ rest) := by
  obtain @⟨a, w, number, name, u, hw, hx, -⟩ := ht
  cases w with
  | nil =>
    obtain ⟨d, y, hd, rfl⟩ := hx.exists_cons
    intro c hc
    cases hc
    exact .inl hd
  | cons b w =>
    intro c hc
    cases hc
    exact .inr (hw b List.mem_cons_self)

def addTerms (total : Nat) (ts : List Term) : Except Fault Nat :=
  ts.foldlM (fun k t => addTerm k t.amount t.name) total

theorem reads_terms {ts : List Term} {pieces : List (List Char)} {w : List Char}
    (hts : List.Forall₂ Term.Written ts pieces) (hw : Blank w) (hfits : ∀ t ∈ ts, t.amount.Fits)
    (hadd : addTerms total ts = .ok n) (origin : Nat) (fresh : Bool) (hne : fresh = true → ts ≠ []) :
    Reads ⟨.lead origin fresh, total⟩ (pieces.flatten ++ w) n := by
  induction hts generalizing total origin fresh with
  | nil =>
    cases hadd
    cases fresh with
    | true => exact absurd rfl (hne rfl)
    | false =>
      rw [← List.append_nil ([].flatten ++ w)]
      exact reads_lead_blank hw fun _ => rfl
  | @cons t x ts pieces ht hts ih =>
    obtain ⟨hfit, hfits⟩ := List.forall_mem_cons.mp hfits
    obtain ⟨m, hm, hadd⟩ := bind_eq_ok_iff.mp hadd
    have hends : EndsUnit (pieces.flatten ++ w) := by
      cases hts with
      | nil => exact endsUnit_blank hw
      | cons ht' _ =>
        rw [List.flatten_cons, List.append_assoc]
        exact ht'.endsUnit _
    rw [List.flatten_cons, List.append_assoc]
    exact ht.reads hfit hm hends (fun origin => ih hfits hadd origin false nofun) origin fresh

/-- Terms that can be added are accepted with their sum. -/
theorem nanos_of_spells {ts : List Term} {cs : List Char} (hne : ts ≠ []) (h : Spells ts cs)
    (hfits : ∀ t ∈ ts, t.amount.Fits) (hadd : addTerms 0 ts = .ok n) : nanos cs = .ok n := by
  obtain ⟨pieces, w, hts, hw, rfl⟩ := h
  have hreads : Reads initial (pieces.flatten ++ w) n :=
    reads_terms hts hw hfits hadd 0 true fun _ => hne
  unfold nanos
  split
  · next hzero =>
    rw [hzero] at hreads
    cases hreads 0
  · exact hreads 0

end Terms

/-- Terms without a fraction that make up a duration. Those of a unit below a second leave room for
the nanoseconds that are carried along. -/
structure Countable (ts : List Term) : Prop where
  whole : ∀ t ∈ ts, t.amount.fraction = none
  fine : ∀ t ∈ ts, t.unit.nanos < nanosPerSecond → t.nanos ≤ (wordBound 64 : ℚ) - nanosPerSecond
  bounded : sum ts < Duration.bound

section Countable
variable {total : Nat} {ts : List Term} {t : Term}

theorem Term.nanos_of_whole (h : t.amount.fraction = none) :
    t.nanos = (t.amount.whole * t.unit.nanos : Nat) := by
  rw [Term.nanos, Amount.value, h]
  push_cast
  ring

theorem Amount.value_nonneg (a : Amount) : 0 ≤ a.value := by
  refine add_nonneg (Nat.cast_nonneg _) ?_
  cases a.fraction with
  | none => exact le_rfl
  | some f => exact div_nonneg (Nat.cast_nonneg _) (Nat.cast_nonneg _)

theorem sum_nonneg (ts : List Term) : 0 ≤ sum ts := by
  induction ts with
  | nil => exact le_rfl
  | cons t ts ih =>
    rw [sum_cons]
    exact add_nonneg (mul_nonneg t.amount.value_nonneg (Nat.cast_nonneg _)) ih

/-- What is below 2^64 seconds has a count below 2^64, if not in nanoseconds. -/
theorem count_lt {k : Nat} {u : TimeUnit} (hu : u.Proper) (hsum : k * u.nanos < Duration.bound)
    (hfine : u.nanos < nanosPerSecond → k * u.nanos + nanosPerSecond ≤ wordBound 64) :
    k * u.whole < wordBound 64 := by
  have hnanos : k * u.nanos = k * u.whole * u.wholeGrain.nanos := (Nat.mul_assoc ..).symm
  cases hgrain : u.wholeGrain with
  | nanosecond =>
    have hroom := hfine (hu.fine hgrain)
    rw [hnanos, hgrain, Grain.nanos] at hroom
    unfold nanosPerSecond at hroom
    omega
  | second =>
    rw [hnanos, hgrain, Grain.nanos, Duration.bound] at hsum
    exact Nat.lt_of_mul_lt_mul_right hsum

theorem add_count {k : Nat} {u : TimeUnit} (hu : u.Proper)
    (hsum : total + k * u.nanos < Duration.bound)
    (hfine : u.nanos < nanosPerSecond → k * u.nanos + nanosPerSecond ≤ wordBound 64) :
    add total u.wholeGrain (k * u.whole) = .ok (total + k * u.nanos) := by
  have hnanos : k * u.nanos = k * u.whole * u.wholeGrain.nanos := (Nat.mul_assoc ..).symm
  rw [hnanos] at hsum hfine ⊢
  refine if_pos ⟨?_, hsum⟩
  cases hgrain : u.wholeGrain with
  | nanosecond =>
    have hroom := hfine (hu.fine hgrain)
    have hcarried : total % nanosPerSecond < nanosPerSecond := Nat.mod_lt _ (by decide)
    rw [hgrain, Grain.nanos] at hroom
    change total % nanosPerSecond + k * u.whole < wordBound 64
    omega
  | second => exact (by decide : 0 < wordBound 64)

theorem addTerm_of_whole {k : Nat} {name : List Char} {u : TimeUnit}
    (hu : unit? (String.ofList name) = some u) (hsum : total + k * u.nanos < Duration.bound)
    (hfine : u.nanos < nanosPerSecond → k * u.nanos + nanosPerSecond ≤ wordBound 64) :
    addTerm total ⟨k, none⟩ name = .ok (total + k * u.nanos) := by
  have hproper := proper_of_unit? hu
  have hcount := count_lt hproper (Nat.lt_of_le_of_lt (Nat.le_add_left _ total) hsum) hfine
  simp only [addTerm, hu, word_of_lt hcount]
  exact bind_eq_ok_iff.mpr ⟨_, rfl, bind_eq_ok_iff.mpr ⟨_, add_count hproper hsum hfine, rfl⟩⟩

theorem addTerm_of_decimal {k num den part n size : Nat} {name : List Char} {u : TimeUnit} {grain : Grain}
    (hu : unit? (String.ofList name) = some u) (hsum : total + k * u.nanos < Duration.bound)
    (hfine : u.nanos < nanosPerSecond → k * u.nanos + nanosPerSecond ≤ wordBound 64)
    (hfraction : u.fraction = some (grain, size)) (hpart : exactly (num * size) den = .ok part)
    (hadd : add (total + k * u.nanos) grain part = .ok n) :
    addTerm total ⟨k, some (num, den)⟩ name = .ok n := by
  have hproper := proper_of_unit? hu
  have hcount := count_lt hproper (Nat.lt_of_le_of_lt (Nat.le_add_left _ total) hsum) hfine
  simp only [addTerm, hu, word_of_lt hcount, hfraction]
  exact bind_eq_ok_iff.mpr ⟨_, rfl, bind_eq_ok_iff.mpr ⟨_, add_count hproper hsum hfine,
    bind_eq_ok_iff.mpr ⟨part, hpart, hadd⟩⟩⟩

theorem addTerms_of_whole {pieces : List (List Char)} (hts : List.Forall₂ Term.Written ts pieces)
    (hwhole : ∀ t ∈ ts, t.amount.fraction = none)
    (hfine : ∀ t ∈ ts, t.unit.nanos < nanosPerSecond →
      t.nanos ≤ (wordBound 64 : ℚ) - nanosPerSecond)
    (hsum : (total : ℚ) + sum ts < Duration.bound) :
    (∀ t ∈ ts, t.amount.Fits) ∧ ∃ n : Nat, addTerms total ts = .ok n ∧ (n : ℚ) = total + sum ts := by
  induction hts generalizing total with
  | nil => exact ⟨nofun, total, rfl, (add_zero _).symm⟩
  | @cons t x ts pieces ht hts ih =>
    obtain ⟨hnone, hwholes⟩ := List.forall_mem_cons.mp hwhole
    obtain ⟨hroom, hfines⟩ := List.forall_mem_cons.mp hfine
    have hnanos := Term.nanos_of_whole hnone
    obtain @⟨⟨k, fraction⟩, w, n, name, u, -, -, hu⟩ := ht
    obtain rfl : fraction = none := hnone
    have hproper := proper_of_unit? hu
    have hrest : ((total + k * u.nanos : Nat) : ℚ) + sum ts < Duration.bound := by
      rw [sum_cons, hnanos, ← add_assoc] at hsum
      rwa [Nat.cast_add]
    have hfirst : total + k * u.nanos < Duration.bound := by
      have hle := le_add_of_nonneg_right (sum_nonneg ts) (a := ((total + k * u.nanos : Nat) : ℚ))
      exact_mod_cast lt_of_le_of_lt hle hrest
    have hspace : u.nanos < nanosPerSecond → k * u.nanos + nanosPerSecond ≤ wordBound 64 := by
      intro hsmall
      have hle := le_sub_iff_add_le.mp (hnanos ▸ hroom hsmall)
      exact_mod_cast hle
    obtain ⟨hfits, n, hn, hvalue⟩ := ih hwholes hfines hrest
    refine ⟨List.forall_mem_cons.mpr ⟨⟨?_, nofun⟩, hfits⟩, n, ?_, ?_⟩
    · have hcount := count_lt hproper (Nat.lt_of_le_of_lt (Nat.le_add_left _ total) hfirst) hspace
      exact Nat.lt_of_le_of_lt (Nat.le_mul_of_pos_right k hproper.positive) hcount
    · exact bind_eq_ok_iff.mpr ⟨_, addTerm_of_whole hu hfirst hspace, hn⟩
    · rw [hvalue, sum_cons, hnanos, Nat.cast_add, add_assoc]

/-- Countable terms are accepted with their sum. -/
theorem Countable.nanos {cs : List Char} (h : Countable ts) (hne : ts ≠ []) (hcs : Spells ts cs) :
    ∃ n : Nat, nanos cs = .ok n ∧ (n : ℚ) = sum ts := by
  have hspelled := hcs
  obtain ⟨pieces, w, hts, hw, rfl⟩ := hcs
  have hsum : ((0 : Nat) : ℚ) + sum ts < Duration.bound := by
    rw [Nat.cast_zero, zero_add]
    exact h.bounded
  obtain ⟨hfits, n, hn, hvalue⟩ := addTerms_of_whole hts h.whole h.fine hsum
  rw [Nat.cast_zero, zero_add] at hvalue
  exact ⟨n, nanos_of_spells hne hspelled hfits hn, hvalue⟩

end Countable
end RowGate.Duration.Spelled
