import RowGate.Proofs.Service.Operations

/-! # Runs under way

A run can be followed one step at a time, with pauses before the steps. A course without pauses ends
as the run of its program does, so that courses say nothing else about programs than runs, only more
of what is between. What holds at the end of a program however its calls are answered holds at the
end of each of its courses.
-/
namespace RowGate.Service
variable {σ α β ε : Type}

inductive Phase (α : Type) where
  | going (rest : Program α)
  | ended (result : Result α)

structure Course (σ α : Type) where
  phase : Phase α
  state : σ
  time : Instant
  trace : List Happening

namespace Program

/-- The first step of a program, with what happens in it. A call is one step, from the question to
the answer. -/
def step (w : World σ) : Program α → σ → Instant → Course σ α
  | .done a, s, t => ⟨.ended (.value a), s, t, []⟩
  | .halt why, s, t => ⟨.ended (.broken why), s, t, []⟩
  | .say e next, s, t => ⟨.going next, s, t, [.said e]⟩
  | .clock next, s, t => ⟨.going (next t), s, t, []⟩
  | .call c limit next, s, t =>
    let p := w.respond s t c
    match limit.waiting w.tick t p.latency with
    | .answered u => ⟨.going (next (some p.answer)), p.state, u, answered p t⟩
    | .abandoned u => ⟨.going (next none), p.abandoned, u, abandoned p t⟩
    | .endless => ⟨.ended .endless, p.abandoned, t, abandoned p t⟩
  | .compute c next, s, t =>
    let p := w.respond s t c
    ⟨.going (next p.answer), p.state, t, answered p t⟩

/-- Induction on steps: what is true of a program as soon as it is true of all that a step may leave
of it, is true of every program. -/
theorem step_induction {motive : Program α → Prop}
    (h : ∀ p, (∀ (w : World σ) s t rest, (p.step w s t).phase = .going rest → motive rest) →
      motive p) (p : Program α) : motive p := by
  induction p with
  | done a => exact h _ fun _ _ _ _ he => by cases he
  | halt why => exact h _ fun _ _ _ _ he => by cases he
  | say e next ih =>
    refine h _ fun _ _ _ _ he => ?_
    cases he
    exact ih
  | clock next ih =>
    refine h _ fun _ _ t _ he => ?_
    cases he
    exact ih t
  | call c limit next ih =>
    refine h _ fun w s t rest he => ?_
    rw [step] at he
    cases hw : limit.waiting w.tick t (w.respond s t c).latency with
    | answered u =>
      simp only [hw] at he
      cases he
      exact ih _
    | abandoned u =>
      simp only [hw] at he
      cases he
      exact ih none
    | endless =>
      simp only [hw] at he
      cases he
  | compute c next ih =>
    refine h _ fun _ _ _ _ he => ?_
    cases he
    exact ih _

end Program

namespace Course

def behind (before : List Happening) (c : Course σ α) : Course σ α :=
  { c with trace := before ++ c.trace }

def next (w : World σ) (pause : Nat) (c : Course σ α) : Course σ α :=
  match c.phase with
  | .going p => p.step w c.state (c.time + pause)
  | .ended _ => { c with trace := [] }

def step (w : World σ) (pause : Nat) (c : Course σ α) : Course σ α :=
  (c.next w pause).behind c.trace

def ending (w : World σ) (c : Course σ α) : Ending σ α :=
  match c.phase with
  | .going p => (p.run w c.state c.time).behind c.trace
  | .ended result => ⟨result, c.time, c.state, c.trace⟩

theorem step_of_ended {w : World σ} {pause : Nat} {c : Course σ α} {result : Result α}
    (h : c.phase = .ended result) : c.step w pause = c := by
  obtain ⟨phase, s, t, trace⟩ := c
  obtain rfl : phase = .ended result := h
  simp [step, next, behind]

theorem ending_behind (w : World σ) (before : List Happening) (c : Course σ α) :
    (c.behind before).ending w = (c.ending w).behind before := by
  obtain ⟨phase, s, t, trace⟩ := c
  cases phase with
  | going p => simp [ending, behind, Ending.behind]
  | ended result => rfl

theorem ending_first (w : World σ) (p : Program α) (s : σ) (t : Instant) :
    (p.step w s t).ending w = p.run w s t := by
  cases p with
  | done a => rfl
  | halt why => rfl
  | say e next => rfl
  | clock next => rfl
  | call c limit next =>
    -- What is left behind the call is what its continuation does with the answer.
    rw [Program.run_call, Program.ask, Program.run, Program.step]
    cases limit.waiting w.tick t (w.respond s t c).latency with
    | answered u => simp [ending, Program.run, Program.answered, Ending.andThen]
    | abandoned u => simp [ending, Program.run, Program.abandoned, Ending.andThen]
    | endless => rfl
  | compute c next =>
    rw [Program.run_compute]
    simp [ending, Program.step, Program.computed, Program.run, Program.answered, Ending.andThen]

theorem ending_step (w : World σ) (c : Course σ α) : (c.step w 0).ending w = c.ending w := by
  obtain ⟨phase, s, t, trace⟩ := c
  cases phase with
  | going p =>
    rw [step, ending_behind]
    exact congrArg _ (ending_first w p s t)
  | ended result => rw [step_of_ended rfl]

def steps (w : World σ) (pauses : List Nat) (c : Course σ α) : Course σ α :=
  pauses.foldl (fun c pause => c.step w pause) c

/-- Without pauses a course ends as it would if it were left to itself. -/
theorem ending_steps {w : World σ} {pauses : List Nat} (h : ∀ pause ∈ pauses, pause = 0)
    (c : Course σ α) : (c.steps w pauses).ending w = c.ending w := by
  induction pauses generalizing c with
  | nil => rfl
  | cons pause rest ih =>
    obtain rfl := h pause List.mem_cons_self
    rw [← ending_step w c]
    exact ih (fun pause hmem => h pause (List.mem_cons_of_mem _ hmem)) _

end Course

/-- Whenever a program goes on, and whatever it is answered, it ends as `P` demands of its result
and of what was picked on the way, behind `g`. -/
def Program.Always (m : Pick ε) (P : Result α → List ε → Prop) : Program α → List ε → Prop
  | .done a, g => P (.value a) g
  | .halt why, g => P (.broken why) g
  | .say _ next, g => next.Always m P g
  | .clock next, g => ∀ t, (next t).Always m P g
  | .call c limit next, g =>
    (∀ t a, (next a).Always m P (g ++ (m c t a).toList)) ∧
      (limit = .unlimited → ∀ t, P .endless (g ++ (m c t none).toList))
  | .compute c next, g => ∀ t a, (next a).Always m P (g ++ (m c t (some a)).toList)

section Always
variable {m : Pick ε} {P Q : Result α → List ε → Prop} {g : List ε}

theorem always_bind {p : Program α} {f : α → Program β} {P : Result β → List ε → Prop} :
    (p >>= f).Always m P g ↔ p.Always m (onward (fun a g => (f a).Always m P g) P) g := by
  change (p.bind f).Always m P g ↔ _
  induction p generalizing g with
  | done a => exact Iff.rfl
  | halt why => exact Iff.rfl
  | say e next ih => exact ih
  | clock next ih => exact forall_congr' fun t => ih t
  | call c limit next ih =>
    exact and_congr_left fun _ => forall_congr' fun t => forall_congr' fun a => ih a
  | compute c next ih => exact forall_congr' fun t => forall_congr' fun a => ih a

theorem Program.Always.mono {p : Program α} (h : p.Always m P g)
    (hpq : ∀ r g', P r (g ++ g') → Q r (g ++ g')) : p.Always m Q g := by
  induction p generalizing g with
  | done a =>
    have hq := hpq (.value a) []
    rw [List.append_nil] at hq
    exact hq h
  | halt why =>
    have hq := hpq (.broken why) []
    rw [List.append_nil] at hq
    exact hq h
  | say e next ih => exact ih h hpq
  | clock next ih => exact fun t => ih t (h t) hpq
  | call c limit next ih =>
    refine ⟨fun t a => ih a (h.1 t a) fun r g' => ?_, fun hl t => hpq _ _ (h.2 hl t)⟩
    simpa using hpq r ((m c t a).toList ++ g')
  | compute c next ih =>
    refine fun t a => ih a (h t a) fun r g' => ?_
    simpa using hpq r ((m c t (some a)).toList ++ g')

/-- Some end there is, so that what was picked until now is the beginning of what `P` speaks of. -/
theorem Program.Always.exists_end {p : Program α} (h : p.Always m P g) :
    ∃ r g', P r (g ++ g') := by
  induction p generalizing g with
  | done a => exact ⟨.value a, [], by rwa [List.append_nil]⟩
  | halt why => exact ⟨.broken why, [], by rwa [List.append_nil]⟩
  | say e next ih => exact ih h
  | clock next ih => exact ih 0 (h 0)
  | call c limit next ih =>
    obtain ⟨r, g', hend⟩ := ih none (h.1 0 none)
    exact ⟨r, (m c 0 none).toList ++ g', by simpa using hend⟩
  | compute c next ih =>
    obtain ⟨a⟩ : Nonempty c.Answer := by cases c <;> exact ⟨.ok default⟩
    obtain ⟨r, g', hend⟩ := ih a (h 0 a)
    exact ⟨r, (m c 0 (some a)).toList ++ g', by simpa using hend⟩

def Course.Meets (m : Pick ε) (P : Result α → List ε → Prop) (c : Course σ α) (g : List ε) : Prop :=
  match c.phase with
  | .going p => p.Always m P (g ++ m.picked c.trace)
  | .ended result => P result (g ++ m.picked c.trace)

theorem Course.meets_behind {c : Course σ α} {before : List Happening} :
    (c.behind before).Meets m P g ↔ c.Meets m P (g ++ m.picked before) := by
  unfold Meets behind
  rw [Pick.picked_append, List.append_assoc]

theorem Program.Always.step {p : Program α} (h : p.Always m P g) (w : World σ) (s : σ)
    (t : Instant) : (p.step w s t).Meets m P g := by
  have hnone : g ++ m.picked [] = g := List.append_nil g
  cases p with
  | done a =>
    change P (.value a) (g ++ m.picked [])
    rwa [hnone]
  | halt why =>
    change P (.broken why) (g ++ m.picked [])
    rwa [hnone]
  | say e next =>
    change next.Always m P (g ++ m.picked [])
    rwa [hnone]
  | clock next =>
    change (next t).Always m P (g ++ m.picked [])
    rw [hnone]
    exact h t
  | call c limit next =>
    rw [Program.step]
    obtain ⟨hl, hw⟩ | ⟨u, -, hw | hw⟩ := limit.waiting_cases w.tick t (w.respond s t c).latency
    · rw [hw]
      simpa [Course.Meets, Pick.picked_abandoned] using h.2 hl t
    · rw [hw]
      simpa [Course.Meets, Pick.picked_answered] using h.1 t (some (w.respond s t c).answer)
    · rw [hw]
      simpa [Course.Meets, Pick.picked_abandoned] using h.1 t none
  | compute c next =>
    simpa [Program.step, Course.Meets, Pick.picked_answered] using h t (w.respond s t c).answer

theorem Course.Meets.step {c : Course σ α} (h : c.Meets m P g) (w : World σ) (pause : Nat) :
    (c.step w pause).Meets m P g := by
  obtain ⟨phase, s, t, trace⟩ := c
  cases phase with
  | going p => exact meets_behind.mpr (Program.Always.step h w s (t + pause))
  | ended result => rwa [step_of_ended rfl]

end Always
end RowGate.Service
