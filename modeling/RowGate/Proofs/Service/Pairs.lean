import RowGate.Gateway.Postgres
import RowGate.Proofs.Service.Notes

/-! # Runs side by side

Two programs go side by side if they say the same, and call for the same but for credentials, as
long as their calls are answered the same way. Then their runs cannot be told apart by what comes of
them, when they end, and what they and the gateway say to the log. What the gateway says can be read
off its answers, so every world can be listened to as if its gateway were the one at hand.
-/
namespace RowGate

namespace Postgres
open Log (Event)

def before : Service.Call → List Event
  | .connect l => [connecting l]
  | _ => []

def after : (c : Service.Call) → c.Answer → List Event
  | .connect l, .ok _ => [connected l]
  | .connect _, .error (.rejected why) => [rejected why]
  | .close, .ok _ => (closed (.ok ())).2
  | _, _ => []

/-- What is said after an attempt to connect can be read off its answer. -/
theorem after_attempted (l : Login) (dialled : Except ConnectFailure Unit) :
    after (.connect l) (attempted l dialled).1 = (attempted l dialled).2 := by
  cases dialled with
  | ok _ => rfl
  | error f =>
    rw [attempted]
    cases GatewayFault.ofFailure f <;> rfl

theorem after_closed (ended : Except String Unit) :
    after .close (closed ended).1 = (closed ended).2 := by
  cases ended <;> rfl

end Postgres

namespace Service
variable {σ α β γ δ : Type}

/-- The same world, of whose collaborators only the gateway speaks. -/
def World.overheard (w : World σ) : World σ where
  respond s t c :=
    let r := w.respond s t c
    { r with before := Postgres.before c, after := Postgres.after c r.answer }
  tick := w.tick
  tick_pos := w.tick_pos

section Overheard
variable (w : World σ) (s : σ) (t : Instant) (c : Call)

@[simp] theorem overheard_answer :
    (w.overheard.respond s t c).answer = (w.respond s t c).answer := rfl
@[simp] theorem overheard_latency :
    (w.overheard.respond s t c).latency = (w.respond s t c).latency := rfl
@[simp] theorem overheard_state :
    (w.overheard.respond s t c).state = (w.respond s t c).state := rfl
@[simp] theorem overheard_abandoned :
    (w.overheard.respond s t c).abandoned = (w.respond s t c).abandoned := rfl
@[simp] theorem overheard_tick : w.overheard.tick = w.tick := rfl

end Overheard

namespace Call

/-- The call without passwords and secrets, and without what is sealed with them. -/
def bare : Call → Call
  | connect login => .connect { login with password := "" }
  | encrypt _ _ => .encrypt [] ""
  | store (.put key _ ttl) => .store (.put key [] ttl)
  | c => c

def bareAnswer : (c : Call) → c.Answer → c.bare.Answer
  | connect _, a => a
  | listTables, a => a
  | query _, a => a
  | close, a => a
  | issueKey, a => a
  | encrypt _ _, a => a.map fun _ => ""
  | decrypt _ _, a => a
  | store (.put _ _ _), a => a
  | store (.get _), a => a
  | store (.delete _), a => a

end Call

def Note.bare (n : Note) : Note := ⟨n.call.bare, n.time, n.latency, n.answer.map n.call.bareAnswer⟩

/-- As far as their calls are the same and made at the same times, but for credentials, two runs
were given the same answers after the same times. -/
def AnsweredAlike (l₁ l₂ : List Note) : Prop :=
  ∀ (i : Nat) (n₁ n₂ : Note), l₁[i]? = some n₁ → l₂[i]? = some n₂ →
    n₁.call.bare = n₂.call.bare → n₁.time = n₂.time → n₁.bare = n₂.bare

theorem AnsweredAlike.of_map_eq {l₁ l₂ : List Note} (h : l₁.map Note.bare = l₂.map Note.bare) :
    AnsweredAlike l₁ l₂ := by
  intro i n₁ n₂ h₁ h₂ _ _
  have hi := congrArg (·[i]?) h
  simpa [h₁, h₂] using hi

theorem AnsweredAlike.uncons {n₁ n₂ : Note} {l₁ l₂ : List Note}
    (h : AnsweredAlike (n₁ :: l₁) (n₂ :: l₂)) :
    (n₁.call.bare = n₂.call.bare → n₁.time = n₂.time → n₁.bare = n₂.bare) ∧
      AnsweredAlike l₁ l₂ :=
  ⟨h 0 n₁ n₂ rfl rfl, fun i a b => h (i + 1) a b⟩

theorem before_bare (c : Call) : Postgres.before c.bare = Postgres.before c := by
  cases c with
  | store r => cases r <;> rfl
  | _ => rfl

theorem after_bare (c : Call) (a : c.Answer) :
    Postgres.after c.bare (c.bareAnswer a) = Postgres.after c a := by
  cases c with
  | connect login =>
    rcases a with f | v
    · cases f <;> rfl
    · rfl
  | store r => cases r <;> rfl
  | _ => rfl

theorem before_eq {c d : Call} (h : c.bare = d.bare) : Postgres.before c = Postgres.before d := by
  rw [← before_bare c, h, before_bare]

theorem after_eq {c d : Call} {a : c.Answer} {b : d.Answer} (h : c.bare = d.bare)
    (hab : c.bareAnswer a ≍ d.bareAnswer b) : Postgres.after c a = Postgres.after d b := by
  rw [← after_bare c, ← after_bare d]
  congr 1

/-- Two programs say the same and call for the same but for credentials, and after the same answers
they go on so, to values that `R` relates. -/
inductive Paired (R : α → β → Prop) : Program α → Program β → Prop where
  | done {a : α} {b : β} (h : R a b) : Paired R (.done a) (.done b)
  | halt (why : String) : Paired R (.halt why) (.halt why)
  | say (e : Log.Event) {p : Program α} {q : Program β} (h : Paired R p q) :
      Paired R (.say e p) (.say e q)
  | clock {p : Instant → Program α} {q : Instant → Program β} (h : ∀ t, Paired R (p t) (q t)) :
      Paired R (.clock p) (.clock q)
  | call {c d : Call} (limit : Limit) {p : Option c.Answer → Program α}
      {q : Option d.Answer → Program β} (hc : c.bare = d.bare)
      (hnone : Paired R (p none) (q none))
      (h : ∀ a b, c.bareAnswer a ≍ d.bareAnswer b → Paired R (p (some a)) (q (some b))) :
      Paired R (.call c limit p) (.call d limit q)
  | compute {c d : Call} {p : c.Answer → Program α} {q : d.Answer → Program β}
      (hc : c.bare = d.bare)
      (h : ∀ a b, c.bareAnswer a ≍ d.bareAnswer b → Paired R (p a) (q b)) :
      Paired R (.compute c p) (.compute d q)

theorem Paired.bind {R : α → β → Prop} {S : γ → δ → Prop} {p : Program α} {q : Program β}
    {f : α → Program γ} {g : β → Program δ} (h : Paired R p q)
    (hfg : ∀ a b, R a b → Paired S (f a) (g b)) : Paired S (p >>= f) (q >>= g) := by
  change Paired S (p.bind f) (q.bind g)
  induction h with
  | done h => exact hfg _ _ h
  | halt why => exact .halt why
  | say e _ ih => exact .say e ih
  | clock _ ih => exact .clock ih
  | call limit hc _ _ ihnone ih => exact .call limit hc ihnone ih
  | compute hc _ ih => exact .compute hc ih

namespace Program
variable {w : World σ} {s : σ} {t : Instant}

theorem noted_step {run : List Note → Ending (σ × List Note) α} {notes : List Note}
    (h : ∀ l, (run l).state.2 = l ++ notes) (l : List Note) (n : Note) :
    (run (l ++ [n])).state.2 = l ++ (run ([] ++ [n])).state.2 := by
  rw [h, h, List.nil_append, List.append_assoc]

/-- What was noted before a run makes no difference to its notes. -/
theorem run_noted_notes (w : World σ) (p : Program α) (s : σ) (l : List Note) (t : Instant) :
    (p.run w.noted (s, l) t).state.2 = l ++ p.notes w s t := by
  induction p generalizing s l t with
  | done a => simp [notes, run]
  | halt why => simp [notes, run]
  | say e next ih => exact ih s l t
  | clock next ih => exact ih t s l t
  | call c limit next ih =>
    have hlatency (l : List Note) :
        (w.noted.respond (s, l) t c).latency = (w.respond s t c).latency := rfl
    have htick : w.noted.tick = w.tick := rfl
    simp only [notes, run, hlatency, htick]
    cases limit.waiting w.tick t (w.respond s t c).latency with
    | answered u => exact noted_step (ih (some (w.respond s t c).answer) _ · u) l _
    | abandoned u => exact noted_step (ih none _ · u) l _
    | endless => rfl
  | compute c next ih =>
    simp only [notes, run]
    exact noted_step (ih (w.respond s t c).answer _ · t) l _

theorem notes_call (c : Call) (limit : Limit) (next : Option c.Answer → Program α) :
    (call c limit next).notes w s t =
      match limit.waiting w.tick t (w.respond s t c).latency with
      | .answered u => ⟨c, t, (w.respond s t c).latency, some (w.respond s t c).answer⟩ ::
          (next (some (w.respond s t c).answer)).notes w (w.respond s t c).state u
      | .abandoned u => ⟨c, t, (w.respond s t c).latency, none⟩ ::
          (next none).notes w (w.respond s t c).abandoned u
      | .endless => [⟨c, t, (w.respond s t c).latency, none⟩] := by
  have hlatency : (w.noted.respond (s, []) t c).latency = (w.respond s t c).latency := rfl
  have htick : w.noted.tick = w.tick := rfl
  rw [notes, run, hlatency, htick]
  cases limit.waiting w.tick t (w.respond s t c).latency with
  | answered u => exact run_noted_notes w _ _ [_] u
  | abandoned u => exact run_noted_notes w _ _ [_] u
  | endless => rfl

theorem notes_call_head (w : World σ) (c : Call) (limit : Limit)
    (next : Option c.Answer → Program α) (s : σ) (t : Instant) :
    ∃ answer rest, (call c limit next).notes w s t =
      ⟨c, t, (w.respond s t c).latency, answer⟩ :: rest := by
  rw [notes_call]
  split
  · exact ⟨_, _, rfl⟩
  · exact ⟨_, _, rfl⟩
  · exact ⟨_, _, rfl⟩

theorem notes_compute (c : Call) (next : c.Answer → Program α) :
    (compute c next).notes w s t =
      ⟨c, t, (w.respond s t c).latency, some (w.respond s t c).answer⟩ ::
        (next (w.respond s t c).answer).notes w (w.respond s t c).state t :=
  run_noted_notes w _ _ [_] t

end Program

def heard (trace : List Happening) : List Log.Event :=
  trace.filterMap fun
    | .said e => some e
    | .called _ _ _ => none

theorem heard_append (h k : List Happening) : heard (h ++ k) = heard h ++ heard k :=
  List.filterMap_append

theorem heard_said (es : List Log.Event) : heard (Program.said es) = es := by
  induction es with
  | nil => rfl
  | cons e es ih => exact congrArg (e :: ·) ih

theorem heard_answered {c : Call} (p : Response σ c) (t : Instant) :
    heard (Program.answered p t) = p.before ++ p.after := by
  rw [Program.answered, heard_append, heard_said]
  exact congrArg (p.before ++ ·) (heard_said p.after)

theorem heard_abandoned {c : Call} (p : Response σ c) (t : Instant) :
    heard (Program.abandoned p t) = p.before := by
  rw [Program.abandoned, heard_append, heard_said]
  exact List.append_nil p.before

structure Alike (r₁ r₂ : Ending σ α) : Prop where
  result : r₁.result = r₂.result
  time : r₁.time = r₂.time
  events : r₁.events = r₂.events

theorem Alike.behind {r₁ r₂ : Ending σ α} (h : Alike r₁ r₂) {before₁ before₂ : List Happening}
    (hb : heard before₁ = heard before₂) : Alike (r₁.behind before₁) (r₂.behind before₂) where
  result := h.result
  time := h.time
  events := by
    change heard (before₁ ++ r₁.trace) = heard (before₂ ++ r₂.trace)
    rw [heard_append, heard_append, hb]
    exact congrArg _ h.events

section Answers
variable {w : World σ} {c d : Call} {s₁ s₂ : σ} {t : Instant} {a : Option c.Answer}
  {b : Option d.Answer} {latency latency' : Latency} {l₁ l₂ : List Note}

theorem AnsweredAlike.latency_eq (hc : c.bare = d.bare)
    (h : AnsweredAlike (⟨c, t, latency, a⟩ :: l₁) (⟨d, t, latency', b⟩ :: l₂)) :
    latency = latency' :=
  congrArg Note.latency (h.uncons.1 hc rfl)

theorem AnsweredAlike.answer_heq {x : c.Answer} {y : d.Answer} (hc : c.bare = d.bare)
    (h : AnsweredAlike (⟨c, t, latency, some x⟩ :: l₁) (⟨d, t, latency', some y⟩ :: l₂)) :
    c.bareAnswer x ≍ d.bareAnswer y := by
  have hsome : some (c.bareAnswer x) ≍ some (d.bareAnswer y) := by
    have hbare := h.uncons.1 hc rfl
    simp only [Note.bare, Note.mk.injEq] at hbare
    exact hbare.2.2.2
  generalize c.bareAnswer x = x, d.bareAnswer y = y at hsome ⊢
  generalize c.bare = c', d.bare = d' at hc x y ⊢
  subst hc
  rw [Option.some.inj (eq_of_heq hsome)]

theorem heard_eq (hc : c.bare = d.bare)
    (h : c.bareAnswer (w.respond s₁ t c).answer ≍ d.bareAnswer (w.respond s₂ t d).answer) :
    heard (Program.answered (w.overheard.respond s₁ t c) t) =
      heard (Program.answered (w.overheard.respond s₂ t d) t) := by
  rw [heard_answered, heard_answered]
  change Postgres.before c ++ Postgres.after c _ = Postgres.before d ++ Postgres.after d _
  rw [before_eq hc, after_eq hc h]

theorem heard_unanswered (hc : c.bare = d.bare) :
    heard (Program.abandoned (w.overheard.respond s₁ t c) t) =
      heard (Program.abandoned (w.overheard.respond s₂ t d) t) := by
  rw [heard_abandoned, heard_abandoned]
  exact before_eq hc

end Answers

/-- Answered alike, programs that go side by side have runs that cannot be told apart. -/
theorem Paired.run {p q : Program α} (h : Paired Eq p q) (w : World σ) {s₁ s₂ : σ} {t : Instant}
    (hnotes : AnsweredAlike (p.notes w s₁ t) (q.notes w s₂ t)) :
    Alike (p.run w.overheard s₁ t) (q.run w.overheard s₂ t) := by
  induction h generalizing s₁ s₂ t with
  | done h =>
    subst h
    exact ⟨rfl, rfl, rfl⟩
  | halt why => exact ⟨rfl, rfl, rfl⟩
  | say e _ ih => exact (ih hnotes).behind (rfl : heard [.said e] = _)
  | clock _ ih => exact ih t hnotes
  | @call c d limit p q hc _ _ ihnone ih =>
    -- The calls are made at the same time and take as long, so the waiting ends in the same way.
    have hlatency : (w.respond s₁ t c).latency = (w.respond s₂ t d).latency := by
      obtain ⟨a, l₁, h₁⟩ := Program.notes_call_head w c limit p s₁ t
      obtain ⟨b, l₂, h₂⟩ := Program.notes_call_head w d limit q s₂ t
      rw [h₁, h₂] at hnotes
      exact hnotes.latency_eq hc
    rw [Program.notes_call, Program.notes_call, hlatency] at hnotes
    simp only [Program.run, overheard_latency, overheard_tick, hlatency]
    generalize limit.waiting w.tick t (w.respond s₂ t d).latency = waiting at hnotes ⊢
    cases waiting with
    | answered u =>
      have hanswers := hnotes.answer_heq hc
      simpa [Ending.behind, Program.answered] using
        (ih _ _ hanswers hnotes.uncons.2).behind (heard_eq hc hanswers)
    | abandoned u =>
      simpa [Ending.behind, Program.abandoned] using
        (ihnone hnotes.uncons.2).behind (heard_unanswered hc)
    | endless => exact ⟨rfl, rfl, heard_unanswered hc⟩
  | compute hc _ ih =>
    rw [Program.notes_compute, Program.notes_compute] at hnotes
    have hanswers := hnotes.answer_heq hc
    simpa [Program.run, Ending.behind, Program.answered] using
      (ih _ _ hanswers hnotes.uncons.2).behind (heard_eq hc hanswers)

structure World.Overlooks (w bare : World σ) : Prop where
  answer : ∀ s t (c : Call),
    c.bareAnswer (w.respond s t c).answer = (bare.respond s t c.bare).answer
  latency : ∀ s t (c : Call), (w.respond s t c).latency = (bare.respond s t c.bare).latency
  state : ∀ s t (c : Call), (w.respond s t c).state = (bare.respond s t c.bare).state
  abandoned : ∀ s t (c : Call), (w.respond s t c).abandoned = (bare.respond s t c.bare).abandoned

section Overlooks
variable {w bare : World σ} {c d : Call}

theorem World.Overlooks.answer_heq (hw : w.Overlooks bare) (s : σ) (t : Instant)
    (hc : c.bare = d.bare) :
    c.bareAnswer (w.respond s t c).answer ≍ d.bareAnswer (w.respond s t d).answer := by
  rw [hw.answer, hw.answer, hc]

theorem World.Overlooks.answered (hw : w.Overlooks bare) (s : σ) (t : Instant)
    (hc : c.bare = d.bare) :
    Note.bare ⟨c, t, (w.respond s t c).latency, some (w.respond s t c).answer⟩ =
      Note.bare ⟨d, t, (w.respond s t d).latency, some (w.respond s t d).answer⟩ := by
  simp only [Note.bare, Option.map_some, hw.answer, hw.latency]
  rw [hc]

theorem World.Overlooks.unanswered (hw : w.Overlooks bare) (s : σ) (t : Instant)
    (hc : c.bare = d.bare) :
    Note.bare ⟨c, t, (w.respond s t c).latency, none⟩ =
      Note.bare ⟨d, t, (w.respond s t d).latency, none⟩ := by
  simp only [Note.bare, Option.map_none, hw.latency]
  rw [hc]

/-- There, programs that go side by side are answered alike. -/
theorem Paired.answeredAlike {R : α → β → Prop} {p : Program α} {q : Program β}
    (h : Paired R p q) (hw : w.Overlooks bare) (s : σ) (t : Instant) :
    AnsweredAlike (p.notes w s t) (q.notes w s t) := by
  refine .of_map_eq ?_
  induction h generalizing s t with
  | done h => rfl
  | halt why => rfl
  | say e _ ih => exact ih s t
  | clock _ ih => exact ih t s t
  | @call c d limit p q hc _ _ ihnone ih =>
    have hlatency : (w.respond s t c).latency = (w.respond s t d).latency := by
      rw [hw.latency, hw.latency, hc]
    have hanswered := hw.answered s t hc
    have hunanswered := hw.unanswered s t hc
    rw [Program.notes_call, Program.notes_call]
    rw [hlatency] at *
    cases limit.waiting w.tick t (w.respond s t d).latency with
    | answered u =>
      simp only [List.map_cons]
      rw [hanswered, ih _ _ (hw.answer_heq s t hc), hw.state, hw.state, hc]
    | abandoned u =>
      simp only [List.map_cons]
      rw [hunanswered, ihnone, hw.abandoned, hw.abandoned, hc]
    | endless => exact congrArg ([·]) hunanswered
  | compute hc _ ih =>
    rw [Program.notes_compute, Program.notes_compute, List.map_cons, List.map_cons,
      hw.answered s t hc, ih _ _ (hw.answer_heq s t hc), hw.state, hw.state, hc]

end Overlooks

end Service
end RowGate
