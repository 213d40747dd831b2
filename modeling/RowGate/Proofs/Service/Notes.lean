import RowGate.Proofs.Service.Operations

/-! # Calls on record

A world can be made to take a note of each call: when it was made, how long its answer takes, and
the answer if it was waited for. The notes change nothing else about a run. With them it can be said
of an answer that was given up when it would have been there.
-/
namespace RowGate.Service
variable {σ α β ε : Type}

def Latency.due (start : Instant) : Latency → Option Instant
  | .ready => some start
  | .after nanos => some (start + nanos)
  | .never => none

structure Note where
  call : Call
  time : Instant
  latency : Latency
  answer : Option call.Answer

def World.noted (w : World σ) : World (σ × List Note) where
  respond s t c :=
    let r := w.respond s.1 t c
    { answer := r.answer, latency := r.latency, before := r.before, after := r.after
      state := (r.state, s.2 ++ [⟨c, t, r.latency, some r.answer⟩])
      abandoned := (r.abandoned, s.2 ++ [⟨c, t, r.latency, none⟩]) }
  tick := w.tick
  tick_pos := w.tick_pos

def everyCall : Pick Call := fun c _ _ => some c

theorem Ending.calls_eq_picked (e : Ending σ α) : e.calls = everyCall.picked e.trace := by
  rw [calls, Pick.picked]
  congr 1

namespace Program

def notes (w : World σ) (p : Program α) (s : σ) (t : Instant) : List Note :=
  (p.run w.noted (s, []) t).state.2

/-- A run on record, with what was noted before it, is the run itself and a note for each of its
calls. -/
def Recorded (l : List Note) (r : Ending (σ × List Note) α) (e : Ending σ α) : Prop :=
  ∃ notes, r = ⟨e.result, e.time, (e.state, l ++ notes), e.trace⟩ ∧ notes.map Note.call = e.calls

theorem Recorded.behind {l : List Note} (n : Note) {r : Ending (σ × List Note) α} {e : Ending σ α}
    {before : List Happening} (h : Recorded (l ++ [n]) r e)
    (hb : everyCall.picked before = [n.call]) :
    Recorded l (r.behind before) (e.behind before) := by
  obtain ⟨notes, rfl, hcalls⟩ := h
  refine ⟨n :: notes, by simp [Ending.behind], ?_⟩
  rw [Ending.calls_eq_picked] at hcalls ⊢
  rw [Ending.behind, Pick.picked_append, hb, List.map_cons, hcalls]
  rfl

theorem run_noted (w : World σ) (p : Program α) (s : σ) (l : List Note) (t : Instant) :
    Recorded l (p.run w.noted (s, l) t) (p.run w s t) := by
  -- On the program: each call adds its note behind `l`, and the rest goes on from there.
  induction p generalizing s l t with
  | done a => exact ⟨[], by simp [run], rfl⟩
  | halt why => exact ⟨[], by simp [run], rfl⟩
  | say e next ih =>
    obtain ⟨notes, hrun, hcalls⟩ := ih s l t
    exact ⟨notes, by simp only [run, hrun], hcalls⟩
  | clock next ih => exact ih t s l t
  | call c limit next ih =>
    have hlatency : (w.noted.respond (s, l) t c).latency = (w.respond s t c).latency := rfl
    have htick : w.noted.tick = w.tick := rfl
    simp only [run, hlatency, htick]
    generalize hp : w.respond s t c = p
    cases limit.waiting w.tick t p.latency with
    | answered u =>
      let n : Note := ⟨c, t, p.latency, some p.answer⟩
      have h := (ih (some p.answer) p.state (l ++ [n]) u).behind n (Pick.picked_answered _ p t)
      simpa [World.noted, hp, Ending.behind, answered] using h
    | abandoned u =>
      let n : Note := ⟨c, t, p.latency, none⟩
      have h := (ih none p.abandoned (l ++ [n]) u).behind n (Pick.picked_abandoned _ p t)
      simpa [World.noted, hp, Ending.behind, abandoned] using h
    | endless =>
      subst hp
      refine ⟨[⟨c, t, (w.respond s t c).latency, none⟩], rfl, ?_⟩
      rw [Ending.calls_eq_picked]
      exact (Pick.picked_abandoned everyCall (w.respond s t c) t).symm
  | compute c next ih =>
    simp only [run]
    generalize hp : w.respond s t c = p
    let n : Note := ⟨c, t, p.latency, some p.answer⟩
    have h := (ih p.answer p.state (l ++ [n]) t).behind n (Pick.picked_answered _ p t)
    simpa [World.noted, hp, Ending.behind, answered] using h

end Program

/-- Where a run on record leads, the run itself leads, with its notes. -/
theorem Leads.of_noted {m : Pick ε} {w : World σ} {p : Program α} {s : σ} {t : Instant}
    {g : List ε} {P : Result α → Post (σ × List Note) ε} (h : Leads m w.noted p (s, []) t g P) :
    P (p.run w s t).result ((p.run w s t).state, p.notes w s t) (p.run w s t).time
      (g ++ m.picked (p.run w s t).trace) := by
  obtain ⟨notes, hrun, -⟩ := p.run_noted w s [] t
  unfold Leads at h
  rw [Program.notes, hrun]
  rwa [hrun] at h

theorem leads_ask_noted {m : Pick ε} {w : World σ} {s : σ} {l : List Note} {t : Instant}
    {g : List ε} {c : Call} {limit : Limit}
    {P : Result (Option c.Answer) → Post (σ × List Note) ε} :
    Leads m w.noted (Program.ask c limit) (s, l) t g P ↔
      match limit.waiting w.tick t (w.respond s t c).latency with
      | .answered u => P (.value (some (w.respond s t c).answer))
          ((w.respond s t c).state,
            l ++ [⟨c, t, (w.respond s t c).latency, some (w.respond s t c).answer⟩]) u
          (g ++ (m c t (some (w.respond s t c).answer)).toList)
      | .abandoned u => P (.value none)
          ((w.respond s t c).abandoned, l ++ [⟨c, t, (w.respond s t c).latency, none⟩]) u
          (g ++ (m c t none).toList)
      | .endless => P .endless
          ((w.respond s t c).abandoned, l ++ [⟨c, t, (w.respond s t c).latency, none⟩]) t
          (g ++ (m c t none).toList) := leads_ask

theorem Program.calls_notes (w : World σ) (p : Program α) (s : σ) (t : Instant) :
    (p.notes w s t).map Note.call = (p.run w s t).calls := by
  obtain ⟨notes, hrun, hcalls⟩ := p.run_noted w s [] t
  rwa [Program.notes, hrun]

end RowGate.Service
