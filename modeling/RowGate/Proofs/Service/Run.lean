import RowGate.Service.Operations

/-! # Runs step by step

The run of a program is the run of its first step and behind it the run of the rest. `Leads` says
where a run ends: what comes of it, in which state, when, and what was picked from its trace on the
way. The rules for it hold in both directions and in every world, so a program is taken apart one
step at a time and nothing is lost.
-/
namespace RowGate.Service
variable {σ α β ε : Type}

/-- The answer was not there at once, and either it was not there by the deadline or it was not
asked for before the deadline. -/
def Latency.Missed (deadline start : Instant) : Latency → Prop
  | .ready => False
  | .after nanos => deadline ≤ start ∨ deadline < start + nanos
  | .never => True

theorem Latency.Missed.mono {deadline last start : Instant} {latency : Latency}
    (h : latency.Missed last start) (hle : deadline ≤ last) : latency.Missed deadline start := by
  cases latency with
  | ready => exact h
  | after nanos => exact h.imp (Nat.le_trans hle) (Nat.lt_of_le_of_lt hle)
  | never => trivial

theorem Limit.bounded_spec (t : Instant) (latency : Latency) (last : Instant) :
    (∃ u, t ≤ u ∧ u ≤ max t last ∧ waiting.bounded t latency last = .answered u) ∨
      latency.Missed last t ∧ waiting.bounded t latency last = .abandoned (max t last) := by
  cases latency with
  | ready => exact .inl ⟨t, Nat.le_refl t, Nat.le_max_left t last, rfl⟩
  | after l =>
    rw [waiting.bounded]
    split
    · next h =>
      exact .inl ⟨t + l, Nat.le_add_right t l, Nat.le_trans h.2 (Nat.le_max_right t last), rfl⟩
    · next h =>
      -- Either there was no time left to wait, or the answer takes longer than that.
      refine .inr ⟨?_, rfl⟩
      obtain hlt | hge := Nat.lt_or_ge t last
      · exact .inr (Nat.lt_of_not_le fun hle => h ⟨hlt, hle⟩)
      · exact .inl hge
  | never => exact .inr ⟨trivial, rfl⟩

theorem Limit.bounded_cases (t : Instant) (latency : Latency) (last : Instant) :
    ∃ u, t ≤ u ∧ (waiting.bounded t latency last = .answered u ∨
      waiting.bounded t latency last = .abandoned u) := by
  obtain ⟨u, hle, -, h⟩ | ⟨-, h⟩ := bounded_spec t latency last
  · exact ⟨u, hle, .inl h⟩
  · exact ⟨_, Nat.le_max_left t last, .inr h⟩

/-- Waiting comes to an end, and not before it began, unless it has no limit. -/
theorem Limit.waiting_cases (limit : Limit) (tick : Nat) (t : Instant) (latency : Latency) :
    limit = .unlimited ∧ limit.waiting tick t latency = .endless ∨
      ∃ u, t ≤ u ∧ (limit.waiting tick t latency = .answered u ∨
        limit.waiting tick t latency = .abandoned u) := by
  cases limit with
  | unlimited =>
    cases latency with
    | ready => exact .inr ⟨t, Nat.le_refl t, .inl rfl⟩
    | after l => exact .inr ⟨t + l, Nat.le_add_right t l, .inl rfl⟩
    | never => exact .inl ⟨rfl, rfl⟩
  | «until» deadline => exact .inr (bounded_cases t latency _)
  | within grace => exact .inr (bounded_cases t latency _)

theorem Limit.waiting_ready (limit : Limit) (tick : Nat) (t : Instant) :
    limit.waiting tick t .ready = .answered t := by
  cases limit <;> rfl

namespace Ending

def behind (before : List Happening) (r : Ending σ α) : Ending σ α :=
  { r with trace := before ++ r.trace }

def andThen (r : Ending σ α) (next : α → σ → Instant → Ending σ β) : Ending σ β :=
  match r.result with
  | .value a => (next a r.state r.time).behind r.trace
  | .broken why => ⟨.broken why, r.time, r.state, r.trace⟩
  | .endless => ⟨.endless, r.time, r.state, r.trace⟩

theorem behind_andThen (before : List Happening) (r : Ending σ α)
    (next : α → σ → Instant → Ending σ β) :
    (r.behind before).andThen next = (r.andThen next).behind before := by
  obtain ⟨result, time, state, trace⟩ := r
  cases result with
  | value a => simp [behind, andThen]
  | broken why => rfl
  | endless => rfl

theorem andThen_andThen {γ : Type} (r : Ending σ α) (f : α → σ → Instant → Ending σ β)
    (h : β → σ → Instant → Ending σ γ) :
    (r.andThen f).andThen h = r.andThen fun a s t => (f a s t).andThen h := by
  obtain ⟨result, time, state, trace⟩ := r
  cases result with
  | value a => exact behind_andThen _ _ _
  | broken why => rfl
  | endless => rfl

end Ending

namespace Program

def answered {c : Call} (p : Response σ c) (t : Instant) : List Happening :=
  said p.before ++ .called c t (some p.answer) :: said p.after

def abandoned {c : Call} (p : Response σ c) (t : Instant) : List Happening :=
  said p.before ++ [.called c t none]

theorem run_say (w : World σ) (e : Log.Event) (next : Program α) (s : σ) (t : Instant) :
    (say e next).run w s t = (next.run w s t).behind [.said e] := rfl

theorem run_call (w : World σ) (c : Call) (limit : Limit) (next : Option c.Answer → Program α)
    (s : σ) (t : Instant) :
    (call c limit next).run w s t =
      ((ask c limit).run w s t).andThen fun a s t => (next a).run w s t := by
  rw [ask, run, run]
  cases limit.waiting w.tick t (w.respond s t c).latency with
  | answered u => simp [run, Ending.andThen, Ending.behind]
  | abandoned u => simp [run, Ending.andThen, Ending.behind]
  | endless => rfl

theorem run_compute (w : World σ) (c : Call) (next : c.Answer → Program α) (s : σ) (t : Instant) :
    (compute c next).run w s t =
      ((computed c).run w s t).andThen fun a s t => (next a).run w s t := by
  simp [computed, run, Ending.andThen, Ending.behind]

/-- The run of two programs in a row is the one run behind the other. -/
theorem run_bind (w : World σ) (p : Program α) (f : α → Program β) (s : σ) (t : Instant) :
    (p.bind f).run w s t = (p.run w s t).andThen fun a s t => (f a).run w s t := by
  induction p generalizing s t with
  | done a => rfl
  | halt why => rfl
  | say e next ih => rw [bind, run_say, run_say, ih, Ending.behind_andThen]
  | clock next ih => exact ih t s t
  | call c limit next ih => simp only [bind, run_call _ _ _ _ s t, ih, Ending.andThen_andThen]
  | compute c next ih => simp only [bind, run_compute _ _ _ s t, ih, Ending.andThen_andThen]

theorem le_time (w : World σ) (p : Program α) (s : σ) (t : Instant) : t ≤ (p.run w s t).time := by
  induction p generalizing s t with
  | done a => exact Nat.le_refl t
  | halt why => exact Nat.le_refl t
  | say e next ih => exact ih s t
  | clock next ih => exact ih t s t
  | call c limit next ih =>
    -- Whatever becomes of the waiting, it does not end before `t`, nor does the rest before that.
    have hw := limit.waiting_cases w.tick t (w.respond s t c).latency
    rw [run]
    generalize limit.waiting w.tick t (w.respond s t c).latency = waiting at hw ⊢
    obtain ⟨-, rfl⟩ | ⟨u, hle, rfl | rfl⟩ := hw
    · exact Nat.le_refl t
    · exact Nat.le_trans hle (ih _ _ u)
    · exact Nat.le_trans hle (ih _ _ u)
  | compute c next ih => exact ih _ _ t

end Program

/-- Something or nothing is picked at each call that was answered or given up. -/
abbrev Pick (ε : Type) := (c : Call) → Instant → Option c.Answer → Option ε

namespace Pick
variable (m : Pick ε)

def ofHappening : Happening → Option ε
  | .said _ => none
  | .called c t answer => m c t answer

def picked (trace : List Happening) : List ε := trace.filterMap m.ofHappening

theorem picked_append (h k : List Happening) : m.picked (h ++ k) = m.picked h ++ m.picked k :=
  List.filterMap_append

theorem picked_said (es : List Log.Event) : m.picked (Program.said es) = [] := by
  induction es with
  | nil => rfl
  | cons e es ih => exact ih

theorem picked_called (c : Call) (t : Instant) (answer : Option c.Answer) :
    m.picked [.called c t answer] = (m c t answer).toList := by
  rw [picked, List.filterMap_cons, List.filterMap_nil, ofHappening]
  cases m c t answer <;> rfl

theorem picked_answered {c : Call} (p : Response σ c) (t : Instant) :
    m.picked (Program.answered p t) = (m c t (some p.answer)).toList := by
  rw [Program.answered, ← List.singleton_append, picked_append, picked_append, picked_said,
    picked_said, picked_called, List.append_nil, List.nil_append]

theorem picked_abandoned {c : Call} (p : Response σ c) (t : Instant) :
    m.picked (Program.abandoned p t) = (m c t none).toList := by
  rw [Program.abandoned, picked_append, picked_said, picked_called, List.nil_append]

end Pick

abbrev Post (σ ε : Type) := σ → Instant → List ε → Prop

def onward {δ : Type} (Q : α → δ) (P : Result β → δ) : Result α → δ
  | .value a => Q a
  | .broken why => P (.broken why)
  | .endless => P .endless

def forward {δ : Type} (Q : α → δ) (P : Result (Except ServiceFault β) → δ) :
    Result (Except ServiceFault α) → δ
  | .value (.ok a) => Q a
  | .value (.error f) => P (.value (.error f))
  | .broken why => P (.broken why)
  | .endless => P .endless

section Leads
variable (m : Pick ε) (w : World σ)

/-- The run of `p` from a state and an instant on ends as `P` demands, where `g` was picked
before it. -/
def Leads (p : Program α) (s : σ) (t : Instant) (g : List ε) (P : Result α → Post σ ε) : Prop :=
  let r := p.run w s t
  P r.result r.state r.time (g ++ m.picked r.trace)

variable {m w} {s : σ} {t : Instant} {g : List ε}

theorem leads_pure {a : α} {P : Result α → Post σ ε} :
    Leads m w (pure a) s t g P ↔ P (.value a) s t g :=
  iff_of_eq (congrArg (P (.value a) s t) (List.append_nil g))

theorem leads_halt {why : String} {P : Result α → Post σ ε} :
    Leads m w (.halt why) s t g P ↔ P (.broken why) s t g :=
  iff_of_eq (congrArg (P (.broken why) s t) (List.append_nil g))

theorem leads_tell {e : Log.Event} {P : Result Unit → Post σ ε} :
    Leads m w (Program.tell e) s t g P ↔ P (.value ()) s t g :=
  iff_of_eq (congrArg (P (.value ()) s t) (List.append_nil g))

theorem leads_now {P : Result Instant → Post σ ε} :
    Leads m w Program.now s t g P ↔ P (.value t) s t g :=
  iff_of_eq (congrArg (P (.value t) s t) (List.append_nil g))

theorem leads_bind {p : Program α} {f : α → Program β} {P : Result β → Post σ ε} :
    Leads m w (p >>= f) s t g P ↔
      Leads m w p s t g (onward (fun a s t g => Leads m w (f a) s t g P) P) := by
  change Leads m w (p.bind f) s t g P ↔ _
  unfold Leads
  rw [Program.run_bind]
  generalize p.run w s t = r
  obtain ⟨result, time, state, trace⟩ := r
  cases result with
  | value a => simp [Ending.andThen, Ending.behind, onward, Pick.picked_append]
  | broken why => rfl
  | endless => rfl

theorem leads_computed {c : Call} {P : Result c.Answer → Post σ ε} :
    Leads m w (Program.computed c) s t g P ↔ P (.value (w.respond s t c).answer)
      (w.respond s t c).state t (g ++ (m c t (some (w.respond s t c).answer)).toList) := by
  rw [← Pick.picked_answered]
  unfold Leads
  simp [Program.computed, Program.run, Program.answered]

theorem leads_ask {c : Call} {limit : Limit} {P : Result (Option c.Answer) → Post σ ε} :
    Leads m w (Program.ask c limit) s t g P ↔
      match limit.waiting w.tick t (w.respond s t c).latency with
      | .answered u => P (.value (some (w.respond s t c).answer)) (w.respond s t c).state u
          (g ++ (m c t (some (w.respond s t c).answer)).toList)
      | .abandoned u => P (.value none) (w.respond s t c).abandoned u
          (g ++ (m c t none).toList)
      | .endless => P .endless (w.respond s t c).abandoned t (g ++ (m c t none).toList) := by
  rw [← Pick.picked_answered, ← Pick.picked_abandoned m (w.respond s t c)]
  unfold Leads
  rw [Program.ask, Program.run]
  cases limit.waiting w.tick t (w.respond s t c).latency with
  | answered u => simp [Program.run, Program.answered]
  | abandoned u => simp [Program.run, Program.abandoned]
  | endless => rfl

theorem Leads.mono {p : Program α} {P Q : Result α → Post σ ε} (h : Leads m w p s t g P)
    (hpq : ∀ r s t g, P r s t g → Q r s t g) : Leads m w p s t g Q := hpq _ _ _ _ h

theorem leads_congr {p : Program α} {P Q : Result α → Post σ ε}
    (h : ∀ r s t g, P r s t g ↔ Q r s t g) : Leads m w p s t g P ↔ Leads m w p s t g Q :=
  h _ _ _ _

theorem leads_then {x : Operation α} {f : α → Operation β}
    {P : Result (Except ServiceFault β) → Post σ ε} :
    Leads m w (x >>= f).run s t g P ↔
      Leads m w x.run s t g (forward (fun a s t g => Leads m w (f a).run s t g P) P) := by
  rw [ExceptT.run_bind, leads_bind]
  refine leads_congr ?_
  intro r s t g
  cases r with
  | broken why => exact Iff.rfl
  | endless => exact Iff.rfl
  | value v =>
    cases v with
    | ok a => exact Iff.rfl
    | error f => exact leads_pure

end Leads
end RowGate.Service
