import Mathlib.Algebra.Order.Field.Rat
import Mathlib.Data.List.Forall2
import Mathlib.Data.Nat.Cast.Field
import Mathlib.Tactic.Ring
import RowGate.Proofs.Digits
import RowGate.Proofs.Duration.Spelled
import RowGate.Proofs.Text

/-! # What spelled durations say

The grammar of spelled durations, apart from their reader, and the rational number of nanoseconds
that each term stands for. What the reader accepts is a sequence of terms, and what it gives is
their sum: at every character, what has been read is whole terms, which the total sums up, and a
beginning of the next one.
-/
namespace RowGate.Duration.Spelled
open RowGate.Text

def Blank (w : List Char) : Prop := ∀ c ∈ w, isBlank c = true

structure Spread (ds s : List Char) : Prop where
  digits : ∀ c ∈ ds, Digits.isDigit c = true
  bare : s.filter (fun c => !isBlank c) = ds

inductive SpellsNumber : Amount → List Char → Prop where
  | whole {d : Char} {ds s : List Char} (hd : Digits.isDigit d = true) (hs : Spread ds s) :
      SpellsNumber ⟨Digits.read 0 (d :: ds), none⟩ (d :: s)
  | decimal {d : Char} {ds s fs s' : List Char} (hd : Digits.isDigit d = true) (hs : Spread ds s)
      (hf : Spread fs s') (hne : fs ≠ []) :
      SpellsNumber ⟨Digits.read 0 (d :: ds), some (Digits.read 0 fs, 10 ^ fs.length)⟩
        (d :: (s ++ '.' :: s'))

def Amount.value (a : Amount) : ℚ :=
  a.whole + match a.fraction with
    | none => 0
    | some (num, den) => num / den

structure Term where
  amount : Amount
  name : List Char
  unit : TimeUnit

def Term.nanos (t : Term) : ℚ := t.amount.value * t.unit.nanos

inductive Term.Written : Term → List Char → Prop where
  | mk {a : Amount} {w n name : List Char} {u : TimeUnit} (hw : Blank w) (hn : SpellsNumber a n)
      (hu : unit? (String.ofList name) = some u) : Written ⟨a, name, u⟩ (w ++ (n ++ name))

/-- Terms one behind the other, with any blanks before and behind each of them. -/
def Spells (ts : List Term) (s : List Char) : Prop :=
  ∃ pieces w, List.Forall₂ Term.Written ts pieces ∧ Blank w ∧ s = pieces.flatten ++ w

def sum (ts : List Term) : ℚ := (ts.map Term.nanos).sum

@[simp] theorem sum_nil : sum [] = 0 := rfl

@[simp] theorem sum_cons (t : Term) (ts : List Term) : sum (t :: ts) = t.nanos + sum ts := by
  rw [sum, List.map_cons, List.sum_cons, sum]

theorem sum_append_singleton (ts : List Term) (t : Term) : sum (ts ++ [t]) = sum ts + t.nanos := by
  rw [sum, List.map_append, List.sum_append, ← sum]
  simp

theorem blank_nil : Blank [] := List.forall_mem_nil _

theorem Blank.append_singleton {w : List Char} {c : Char} (hw : Blank w) (hc : isBlank c = true) :
    Blank (w ++ [c]) := by
  intro b hb
  rcases List.mem_append.mp hb with hb | hb
  · exact hw b hb
  · rw [List.mem_singleton.mp hb]
    exact hc

section Spread
variable {ds s : List Char} {c : Char}

theorem spread_nil : Spread [] [] := ⟨List.forall_mem_nil _, rfl⟩

theorem Spread.digit (h : Spread ds s) (hc : Digits.isDigit c = true) :
    Spread (ds ++ [c]) (s ++ [c]) := by
  have hbare : [c].filter (fun c => !isBlank c) = [c] :=
    List.filter_cons_of_pos (by rw [not_blank_of_isDigit hc]; rfl)
  refine ⟨List.forall_mem_append.mpr ⟨h.digits, List.forall_mem_singleton.mpr hc⟩, ?_⟩
  rw [List.filter_append, h.bare, hbare]

theorem Spread.blank (h : Spread ds s) (hc : isBlank c = true) : Spread ds (s ++ [c]) := by
  have hbare : [c].filter (fun c => !isBlank c) = [] :=
    List.filter_cons_of_neg (by rw [hc]; decide)
  refine ⟨h.digits, ?_⟩
  rw [List.filter_append, h.bare, hbare, List.append_nil]

end Spread

theorem mem_unitNames_of_unit? {name : String} {u : TimeUnit} (h : unit? name = some u) :
    ∃ names, (names, u) ∈ unitNames ∧ name ∈ names := by
  obtain ⟨⟨names, _⟩, hfind, rfl⟩ := Option.map_eq_some_iff.mp h
  have hname := List.find?_some hfind
  exact ⟨names, List.mem_of_find?_eq_some hfind, by simpa using hname⟩

/-- A unit has a length, a fraction of it is taken of just this length, and a unit that counts in
nanoseconds is shorter than a second. -/
structure TimeUnit.Proper (u : TimeUnit) : Prop where
  positive : 0 < u.whole
  fraction : ∀ f ∈ u.fraction, f.2 * f.1.nanos = u.nanos
  fine : u.wholeGrain = .nanosecond → u.nanos < nanosPerSecond

theorem proper_of_unit? {name : String} {u : TimeUnit} (h : unit? name = some u) : u.Proper := by
  have table : ∀ e ∈ unitNames, 0 < e.2.whole ∧ (∀ f ∈ e.2.fraction, f.2 * f.1.nanos = e.2.nanos) ∧
      (e.2.wholeGrain = .nanosecond → e.2.nanos < nanosPerSecond) := by
    decide
  obtain ⟨names, hmem, -⟩ := mem_unitNames_of_unit? h
  obtain ⟨hpositive, hfraction, hfine⟩ := table _ hmem
  exact ⟨hpositive, hfraction, hfine⟩

section Arithmetic
variable {n m : Nat}

theorem add_eq_ok {grain : Grain} {count : Nat} (h : add n grain count = .ok m) :
    m = n + count * grain.nanos := by
  unfold add at h
  extract_lets carried at h
  split at h
  · exact (Except.ok.inj h).symm
  · split at h <;> cases h

theorem word_eq_ok {k : Nat} (h : word k = .ok m) : m = k := by
  unfold word at h
  split at h
  · exact (Except.ok.inj h).symm
  · cases h

/-- A quotient is given only where nothing is left over. -/
theorem exactly_eq_ok {num den : Nat} (h : exactly num den = .ok m) : (m : ℚ) = num / den := by
  unfold exactly at h
  split at h
  · next hfits =>
    rw [← Except.ok.inj h]
    exact Nat.cast_div_charZero (Nat.dvd_of_mod_eq_zero hfits.2)
  · cases h

/-- A term adds its value, whatever fraction it has. -/
theorem addTerm_eq_ok {a : Amount} {name : List Char} (h : addTerm n a name = .ok m) :
    ∃ u, unit? (String.ofList name) = some u ∧ (m : ℚ) = n + (Term.mk a name u).nanos := by
  unfold addTerm at h
  split at h
  · split at h <;> cases h
  next u hu =>
  refine ⟨u, hu, ?_⟩
  obtain ⟨count, hcount, h⟩ := bind_eq_ok_iff.mp h
  obtain ⟨whole, hwhole, h⟩ := bind_eq_ok_iff.mp h
  have hunit : u.nanos = u.whole * u.wholeGrain.nanos := rfl
  have hsum : whole = n + a.whole * u.nanos := by
    rw [add_eq_ok hwhole, word_eq_ok hcount, hunit, Nat.mul_assoc]
  split at h
  · next hnone =>
    cases h
    rw [Term.nanos, Amount.value, hnone, hsum]
    push_cast
    ring
  next num den hsome =>
  split at h
  · cases h
  next grain size hfraction =>
  obtain ⟨part, hpart, h⟩ := bind_eq_ok_iff.mp h
  have hsize : size * grain.nanos = u.nanos := (proper_of_unit? hu).fraction _ hfraction
  have hquotient := exactly_eq_ok hpart
  rw [Term.nanos, Amount.value, hsome, add_eq_ok h, hsum, ← hsize]
  push_cast at hquotient ⊢
  rw [hquotient]
  ring

end Arithmetic

/-- What a reader has read of the term at which it stands. -/
inductive Stands : List Char → Phase → Prop where
  | lead {w : List Char} {origin : Nat} {fresh : Bool} (hw : Blank w) :
      Stands w (.lead origin fresh)
  | whole {w ds s : List Char} {d : Char} (hw : Blank w) (hd : Digits.isDigit d = true)
      (hs : Spread ds s) : Stands (w ++ d :: s) (.whole (Digits.read 0 (d :: ds)))
  | fraction {w ds s fs s' : List Char} {d : Char} {good : Nat} (hw : Blank w)
      (hd : Digits.isDigit d = true) (hs : Spread ds s) (hf : Spread fs s') :
      Stands (w ++ d :: (s ++ '.' :: s'))
        (.fraction (Digits.read 0 (d :: ds)) (Digits.read 0 fs) (10 ^ fs.length) good)
  | unit {w n name : List Char} {a : Amount} (hw : Blank w) (hn : SpellsNumber a n) :
      Stands (w ++ (n ++ name)) (.unit a name)

theorem Stands.digit {w : List Char} {c : Char} (hw : Blank w) (hc : Digits.isDigit c = true) :
    Stands (w ++ [c]) (.whole (Digits.value c)) := by
  have hone : Digits.read 0 [c] = Digits.value c := Digits.read_zero_cons c []
  rw [← hone]
  exact .whole hw hc spread_nil

def Phase.Behind (ts : List Term) : Phase → Prop
  | .lead _ false => ts ≠ []
  | _ => True

theorem Phase.behind_of_ne_nil {ts : List Term} (h : ts ≠ []) (phase : Phase) : phase.Behind ts := by
  unfold Phase.Behind
  split
  · exact h
  · trivial

def Past (before : List Char) (s : State) : Prop :=
  ∃ ts pieces now, List.Forall₂ Term.Written ts pieces ∧ before = pieces.flatten ++ now ∧
    Stands now s.phase ∧ (s.total : ℚ) = sum ts ∧ s.phase.Behind ts

section Reading
variable {before : List Char} {s s' : State} {n : Nat}

theorem past_initial : Past [] initial :=
  ⟨[], [], [], .nil, rfl, .lead blank_nil, rfl, trivial⟩

/-- A term that has been read is one more, and nothing has been read of the next. -/
theorem Past.close {a : Amount} {name : List Char} {total : Nat} (h : Past before ⟨.unit a name, total⟩)
    (hadd : addTerm total a name = .ok n) :
    ∃ ts pieces, List.Forall₂ Term.Written ts pieces ∧ before = pieces.flatten ∧ (n : ℚ) = sum ts ∧
      ts ≠ [] := by
  obtain ⟨ts, pieces, now, hts, rfl, hnow, hsum, -⟩ := h
  obtain ⟨u, hu, hn⟩ := addTerm_eq_ok hadd
  have hterm : Term.Written ⟨a, name, u⟩ now := by
    generalize hphase : Phase.unit a name = phase at hnow
    cases hnow with
    | unit hw hnumber =>
      cases hphase
      exact .mk hw hnumber hu
    | _ => cases hphase
  refine ⟨ts ++ [⟨a, name, u⟩], pieces ++ [now], ?_, by simp, ?_, by simp⟩
  · exact List.rel_append hts (.cons hterm .nil)
  · rw [sum_append_singleton, hn, ← hsum]

/-- A term that begins behind whole terms. -/
theorem Past.begin {ts : List Term} {pieces : List (List Char)} {now : List Char} {phase : Phase}
    (hts : List.Forall₂ Term.Written ts pieces) (hn : (n : ℚ) = sum ts) (hne : ts ≠ [])
    (hnow : Stands now phase) : Past (pieces.flatten ++ now) ⟨phase, n⟩ :=
  ⟨ts, pieces, now, hts, rfl, hnow, hn, phase.behind_of_ne_nil hne⟩

section Steps
variable {ts : List Term} {pieces : List (List Char)} {now : List Char} {phase : Phase}
  {total offset next : Nat} {c : Char}

/-- A term that goes on behind whole terms. -/
theorem Past.onward (hts : List.Forall₂ Term.Written ts pieces) (hsum : (total : ℚ) = sum ts)
    (hbehind : phase.Behind ts) (hnow : Stands (now ++ [c]) phase) :
    Past (pieces.flatten ++ now ++ [c]) ⟨phase, total⟩ :=
  ⟨ts, pieces, now ++ [c], hts, List.append_assoc .., hnow, hsum, hbehind⟩

theorem Past.step_lead {origin : Nat} {fresh : Bool} (h : Past before ⟨.lead origin fresh, total⟩)
    (hstep : step ⟨.lead origin fresh, total⟩ offset next c = .ok s') : Past (before ++ [c]) s' := by
  obtain ⟨ts, pieces, now, hts, rfl, @⟨_, _, _, hw⟩, hsum, hbehind⟩ := h
  simp only [step] at hstep
  split at hstep
  · next hc =>
    cases hstep
    exact Past.onward hts hsum trivial (.digit hw hc)
  split at hstep
  · next hc =>
    cases hstep
    exact Past.onward hts hsum hbehind (.lead (hw.append_singleton hc))
  · cases hstep

theorem Past.step_whole {k : Nat} (h : Past before ⟨.whole k, total⟩)
    (hstep : step ⟨.whole k, total⟩ offset next c = .ok s') : Past (before ++ [c]) s' := by
  obtain ⟨ts, pieces, now, hts, rfl, hnow, hsum, -⟩ := h
  cases hnow with
  | @whole w ds s d hw hd hs =>
    have hplace : w ++ d :: s ++ [c] = w ++ d :: (s ++ [c]) := List.append_assoc ..
    simp only [step] at hstep
    split at hstep
    · next hc =>
      obtain ⟨m, hm, hstep⟩ := bind_eq_ok_iff.mp hstep
      cases hstep
      refine Past.onward hts hsum trivial ?_
      rw [hplace, word_eq_ok hm, ← Digits.read_append_singleton]
      exact .whole hw hd (hs.digit hc)
    split at hstep
    · next hc =>
      cases hstep
      refine Past.onward hts hsum trivial ?_
      rw [hplace]
      exact .whole hw hd (hs.blank hc)
    split at hstep
    · cases hstep
      refine Past.onward hts hsum trivial ?_
      rw [List.append_assoc]
      exact .unit hw (.whole hd hs)
    split at hstep
    · next hc =>
      cases hstep
      refine Past.onward hts hsum trivial ?_
      rw [hplace, hc]
      exact .fraction hw hd hs spread_nil
    · cases hstep

theorem Past.step_fraction {k num den good : Nat} (h : Past before ⟨.fraction k num den good, total⟩)
    (hstep : step ⟨.fraction k num den good, total⟩ offset next c = .ok s') :
    Past (before ++ [c]) s' := by
  obtain ⟨ts, pieces, now, hts, rfl, hnow, hsum, -⟩ := h
  cases hnow with
  | @fraction w ds s fs s' d _ hw hd hs hf =>
    have hplace : w ++ d :: (s ++ '.' :: s') ++ [c] = w ++ d :: (s ++ '.' :: (s' ++ [c])) := by simp
    simp only [step] at hstep
    split at hstep
    · next hc =>
      obtain ⟨den, hden, hstep⟩ := bind_eq_ok_iff.mp hstep
      obtain ⟨num, hnum, hstep⟩ := bind_eq_ok_iff.mp hstep
      cases hstep
      have hpower : den = 10 ^ (fs ++ [c]).length := by
        rw [word_eq_ok hden, List.length_append, List.length_singleton, Nat.pow_succ, Nat.mul_comm]
      refine Past.onward hts hsum trivial ?_
      rw [hplace, hpower, word_eq_ok hnum, ← Digits.read_append_singleton]
      exact .fraction hw hd hs (hf.digit hc)
    split at hstep
    · next hc =>
      cases hstep
      refine Past.onward hts hsum trivial ?_
      rw [hplace]
      exact .fraction hw hd hs (hf.blank hc)
    split at hstep
    · next hc =>
      cases hstep
      have hne : fs ≠ [] := by
        rintro rfl
        simp at hc
      refine Past.onward hts hsum trivial ?_
      rw [List.append_assoc]
      exact .unit hw (.decimal hd hs hf hne)
    · cases hstep

theorem Past.step_unit {a : Amount} {name : List Char} (h : Past before ⟨.unit a name, total⟩)
    (hstep : step ⟨.unit a name, total⟩ offset next c = .ok s') : Past (before ++ [c]) s' := by
  simp only [step] at hstep
  split at hstep
  · next hc =>
    obtain ⟨m, hm, hstep⟩ := bind_eq_ok_iff.mp hstep
    obtain ⟨ts, pieces, hts, rfl, hsum, hne⟩ := h.close hm
    cases hstep
    exact Past.begin hts hsum hne (.digit blank_nil hc)
  split at hstep
  · next hc =>
    obtain ⟨m, hm, hstep⟩ := bind_eq_ok_iff.mp hstep
    obtain ⟨ts, pieces, hts, rfl, hsum, hne⟩ := h.close hm
    cases hstep
    exact Past.begin hts hsum hne (.lead (blank_nil.append_singleton hc))
  split at hstep
  · cases hstep
    obtain ⟨ts, pieces, now, hts, rfl, hnow, hsum, -⟩ := h
    refine Past.onward hts hsum trivial ?_
    cases hnow with
    | unit hw hn =>
      simp only [List.append_assoc]
      exact .unit hw hn
  · cases hstep

/-- One character takes a reader on within its term or behind it. -/
theorem Past.step (h : Past before s) (hstep : step s offset next c = .ok s') :
    Past (before ++ [c]) s' := by
  obtain ⟨phase, total⟩ := s
  cases phase with
  | lead => exact h.step_lead hstep
  | whole => exact h.step_whole hstep
  | fraction => exact h.step_fraction hstep
  | unit => exact h.step_unit hstep

end Steps

/-- The end of a text closes the last term. -/
theorem Past.finish (h : Past before s) (hend : finish s = .ok n) :
    ∃ ts, ts ≠ [] ∧ Spells ts before ∧ (n : ℚ) = sum ts := by
  have hnameless : unit? (String.ofList []) = none := by decide
  obtain ⟨phase, total⟩ := s
  cases phase with
  | lead origin fresh =>
    obtain ⟨ts, pieces, now, hts, rfl, @⟨_, _, _, hw⟩, hsum, hbehind⟩ := h
    cases fresh with
    | true => cases hend
    | false =>
      cases hend
      exact ⟨ts, hbehind, ⟨pieces, now, hts, hw, rfl⟩, hsum⟩
  | whole k =>
    simp only [Spelled.finish] at hend
    obtain ⟨u, hu, -⟩ := addTerm_eq_ok hend
    rw [hnameless] at hu
    cases hu
  | fraction k num den good =>
    simp only [Spelled.finish] at hend
    split at hend
    · cases hend
    · obtain ⟨u, hu, -⟩ := addTerm_eq_ok hend
      rw [hnameless] at hu
      cases hu
  | unit a name =>
    obtain ⟨ts, pieces, hts, rfl, hsum, hne⟩ := h.close hend
    exact ⟨ts, hne, ⟨pieces, [], hts, blank_nil, by simp⟩, hsum⟩

theorem Past.run {cs : List Char} {offset : Nat} (h : Past before s)
    (hrun : run s offset cs = .ok n) : ∃ ts, ts ≠ [] ∧ Spells ts (before ++ cs) ∧ (n : ℚ) = sum ts := by
  induction cs generalizing before s offset with
  | nil =>
    rw [List.append_nil]
    exact h.finish hrun
  | cons c cs ih =>
    obtain ⟨s', hstep, hrest⟩ := bind_eq_ok_iff.mp hrun
    have hterms := ih (h.step hstep) hrest
    rw [List.append_assoc] at hterms
    exact hterms

/-- What is accepted is terms, but for a lone zero, and what is given is their sum. -/
theorem spells_of_nanos {cs : List Char} (h : nanos cs = .ok n) (hn : n ≠ 0) :
    ∃ ts, ts ≠ [] ∧ Spells ts cs ∧ (n : ℚ) = sum ts := by
  unfold nanos at h
  split at h
  · cases h
    exact absurd rfl hn
  · exact past_initial.run h

end Reading
end RowGate.Duration.Spelled
