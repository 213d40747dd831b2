import RowGate.Proofs.Service.Notes
import RowGate.Proofs.Service.Origin

/-! # Operations come to an end in time

The calls of an operation share one deadline, which lies a timeout behind its start; closing a
connection has a grace of its own. Limits are kept to the tick of the clock. So an operation on
sessions ends at the last tick that the deadline and the grace allow, whatever its collaborators do,
and it fails for want of time only where the answer to a call was not there by the deadline.
-/
namespace RowGate
open Service

theorem Instant.nextTick_mono {tick : Nat} {t u : Instant} (h : t ≤ u) :
    nextTick tick t ≤ nextTick tick u :=
  Nat.mul_le_mul_right tick (Nat.div_le_div_right (Nat.add_le_add_right h _))

theorem Instant.nextTick_of_dvd {tick : Nat} {t : Instant} (htick : 0 < tick) (h : tick ∣ t) :
    nextTick tick t = t := by
  obtain ⟨n, rfl⟩ := h
  have hlt : tick - 1 < tick := Nat.sub_lt htick Nat.one_pos
  rw [nextTick, Nat.mul_add_div htick, Nat.div_eq_of_lt hlt, Nat.add_zero, Nat.mul_comm]

namespace Service
variable {σ α β ε : Type}

theorem Limit.until_spec {tick : Nat} (htick : 0 < tick) (t : Instant) (latency : Latency)
    (deadline : Instant) :
    ∃ u, u ≤ max t (deadline.nextTick tick) ∧
      ((Limit.until deadline).waiting tick t latency = .answered u ∨
        latency.Missed deadline t ∧
          (Limit.until deadline).waiting tick t latency = .abandoned u) := by
  obtain ⟨u, -, hu, h⟩ | ⟨hm, h⟩ := bounded_spec t latency (deadline.nextTick tick)
  · exact ⟨u, hu, .inl h⟩
  · exact ⟨_, Nat.le_refl _, .inr ⟨hm.mono (Instant.le_nextTick htick deadline), h⟩⟩

theorem Limit.within_spec {tick : Nat} (htick : 0 < tick) (t : Instant) (latency : Latency)
    (grace : Duration) :
    ∃ u, u ≤ (t + grace.nanos).nextTick tick ∧
      ((Limit.within grace).waiting tick t latency = .answered u ∨
        (Limit.within grace).waiting tick t latency = .abandoned u) := by
  have hle : t ≤ (t + grace.nanos).nextTick tick :=
    Nat.le_trans (Nat.le_add_right t _) (Instant.le_nextTick htick _)
  have hmax := Nat.max_eq_right hle
  obtain ⟨u, -, hu, h⟩ | ⟨-, h⟩ := bounded_spec t latency ((t + grace.nanos).nextTick tick)
  · exact ⟨u, hmax ▸ hu, .inl h⟩
  · exact ⟨_, Nat.le_of_eq hmax, .inr h⟩

def Call.step? : Call → Option String
  | connect _ => some "connect"
  | listTables => some "list tables"
  | query _ => some "query"
  | issueKey => some "session key issue"
  | store (.put _ _ _) => some "session store write"
  | store (.get _) => some "session store read"
  | store (.delete _) => some "session store delete"
  | close => none
  | encrypt _ _ => none
  | decrypt _ _ => none

structure Note.TimedOut (n : Note) (deadline : Instant) (step : String) : Prop where
  step_eq : n.call.step? = some step
  unanswered : n.answer = none
  missed : n.latency.Missed deadline n.time

def Note.IsConnection : Note → Prop
  | ⟨.connect _, _, _, some (.ok _)⟩ => True
  | _ => False

/-- A step timed out, and behind it came no call but the close of a connection that was there. -/
inductive TimedOut (deadline : Instant) (step : String) : List Note → Prop where
  | last {before : List Note} {n : Note} (h : n.TimedOut deadline step) :
      TimedOut deadline step (before ++ [n])
  | closing {before : List Note} {n c : Note} (h : n.TimedOut deadline step)
      (ho : ∃ o ∈ before, o.IsConnection) (hc : c.call = .close) :
      TimedOut deadline step (before ++ [n, c])

def Untimed : ServiceFault → Prop
  | .timeout _ _ => False
  | _ => True

theorem untimed_of_origin {f : ServiceFault} (h : f.origin ≠ .clock) : Untimed f := by
  cases f with
  | timeout step limit => exact h rfl
  | _ => trivial

/-- What came of an operation came in time, and if it was a timeout, a step had timed out. -/
structure Prompt (sv : Service) (deadline bound : Instant) (v : Except ServiceFault α)
    (notes : List Note) (u : Instant) : Prop where
  inTime : u ≤ bound
  timedOut : ∀ step limit, v = .error (.timeout step limit) →
    limit = sv.timeout ∧ TimedOut deadline step notes

theorem Prompt.failed {sv : Service} {d bound bound' u : Instant} {notes : List Note}
    {f : ServiceFault} (h : Prompt sv d bound (.error f : Except ServiceFault α) notes u)
    (hle : bound ≤ bound') : Prompt sv d bound' (.error f : Except ServiceFault β) notes u := by
  refine ⟨Nat.le_trans h.inTime hle, fun step limit hf => h.timedOut step limit ?_⟩
  rw [Except.error.inj hf]

def closingTick (tick : Nat) (deadline : Instant) : Instant :=
  (deadline.nextTick tick + closeGrace.nanos).nextTick tick

theorem nextTick_le_closingTick {tick : Nat} (htick : 0 < tick) (d : Instant) :
    d.nextTick tick ≤ closingTick tick d :=
  Nat.le_trans (Nat.le_add_right _ _) (Instant.le_nextTick htick _)

theorem closingTick_of_dvd {tick : Nat} {d : Instant} (htick : 0 < tick) (hd : tick ∣ d)
    (hgrace : tick ∣ closeGrace.nanos) : closingTick tick d = d + closeGrace.nanos := by
  rw [closingTick, Instant.nextTick_of_dvd htick hd,
    Instant.nextTick_of_dvd htick (Nat.dvd_add hd hgrace)]

def prompt (sv : Service) (d bound : Instant) :
    Result (Except ServiceFault α) → Post (σ × List Note) ε :=
  fun r s u _ => ∃ v, r = .value v ∧ Prompt sv d bound v s.2 u

section Rules
variable {m : Pick ε} {w : World σ} {s : σ} {l : List Note} {t d bound : Instant} {g : List ε}
  (sv : Service)

theorem Prompt.ok {notes : List Note} (a : α) (ht : t ≤ bound) :
    ∃ v, (.value (.ok a) : Result (Except ServiceFault α)) = .value v ∧
      Prompt sv d bound v notes t := ⟨_, rfl, ht, fun _ _ h => by cases h⟩

theorem Prompt.error {notes : List Note} {f : ServiceFault} {o : Origin} (hf : f.origin = o)
    (ht : t ≤ bound) (ho : o ≠ .clock := by decide) :
    ∃ v, (.value (.error f) : Result (Except ServiceFault α)) = .value v ∧
      Prompt sv d bound v notes t := by
  have huntimed : Untimed f := untimed_of_origin (hf ▸ ho)
  refine ⟨_, rfl, ht, ?_⟩
  rintro step limit ⟨⟩
  exact huntimed.elim

theorem Prompt.timeout {notes : List Note} {step : String} (h : TimedOut d step notes)
    (ht : t ≤ bound) :
    ∃ v, (.value (.error (.timeout step sv.timeout)) : Result (Except ServiceFault α)) = .value v ∧
      Prompt sv d bound v notes t := by
  refine ⟨_, rfl, ht, ?_⟩
  rintro _ _ ⟨⟩
  exact ⟨rfl, h⟩

theorem Leads.ask_until {c : Call} {P : Result (Option c.Answer) → Post (σ × List Note) ε}
    (ha : ∀ latency a s' u, u ≤ max t (d.nextTick w.tick) →
      P (.value (some a)) (s', l ++ [⟨c, t, latency, some a⟩]) u (g ++ (m c t (some a)).toList))
    (hm : ∀ latency s' u, u ≤ max t (d.nextTick w.tick) → latency.Missed d t →
      P (.value none) (s', l ++ [⟨c, t, latency, none⟩]) u (g ++ (m c t none).toList)) :
    Leads m w.noted (Program.ask c (.until d)) (s, l) t g P := by
  rw [leads_ask_noted]
  obtain ⟨u, hu, h | ⟨hmissed, h⟩⟩ := Limit.until_spec w.tick_pos t (w.respond s t c).latency d
  · rw [h]
    exact ha _ _ _ u hu
  · rw [h]
    exact hm _ _ u hu hmissed

/-- A step that times out is the end of an operation; otherwise the operation goes on with its
value, or ends with a failure of another kind. -/
theorem Leads.bounded_prompt {step : String} {c : Call} {f : c.Value → Operation β}
    (hstep : c.step? = some step) (hbound : max t (d.nextTick w.tick) ≤ bound)
    (h : ∀ latency v s' u g', u ≤ max t (d.nextTick w.tick) →
      Leads m w.noted (f v).run (s', l ++ [⟨c, t, latency, some (.ok v)⟩]) u g'
        (prompt sv d bound)) :
    Leads m w.noted (sv.bounded d step c >>= f).run (s, l) t g (prompt sv d bound) := by
  rw [leads_then, leads_bounded]
  refine Leads.ask_until ?_ ?_
  · intro latency a s' u hu
    cases a with
    | ok v =>
      simp only [onward, verdict, reply, forward]
      exact h latency v s' u _ hu
    | error f =>
      simp only [onward, verdict, reply, forward]
      exact Prompt.error sv (origin_failure c f) (Nat.le_trans hu hbound)
  · intro latency s' u hu hmissed
    exact Prompt.timeout sv (.last ⟨hstep, rfl, hmissed⟩) (Nat.le_trans hu hbound)

theorem Leads.connect_prompt {login : Login} {f : Unit → Operation β}
    (hbound : max t (d.nextTick w.tick) ≤ bound)
    (h : ∀ latency s' u g', u ≤ max t (d.nextTick w.tick) →
      Leads m w.noted (f ()).run (s', l ++ [⟨.connect login, t, latency, some (.ok ())⟩]) u g'
        (prompt sv d bound)) :
    Leads m w.noted (sv.connect login d >>= f).run (s, l) t g (prompt sv d bound) := by
  rw [leads_then, leads_connect, ← leads_bounded, ← leads_then]
  exact Leads.bounded_prompt sv rfl hbound fun latency _ s' u g' hu => h latency s' u g' hu

theorem Leads.release_prompt {f : Unit → Operation β}
    {P : Result (Except ServiceFault β) → Post (σ × List Note) ε}
    (h : ∀ latency a s' u g', u ≤ (t + closeGrace.nanos).nextTick w.tick →
      Leads m w.noted (f ()).run (s', l ++ [⟨.close, t, latency, a⟩]) u g' P) :
    Leads m w.noted ((liftM release : Operation Unit) >>= f).run (s, l) t g P := by
  rw [leads_then, leads_lift, leads_release, leads_ask_noted]
  obtain ⟨u, hu, hw | hw⟩ :=
    Limit.within_spec w.tick_pos t (w.respond s t .close).latency closeGrace
  · rw [hw]
    exact h _ _ _ u _ hu
  · rw [hw]
    exact h _ _ _ u _ hu

theorem Leads.use_prompt {step : String} {c : Call} {f : c.Value → Operation β}
    (hstep : c.step? = some step) (ho : ∃ o ∈ l, o.IsConnection)
    (ht : t ≤ d.nextTick w.tick)
    (h : ∀ v s' l' u g', u ≤ closingTick w.tick d →
      Leads m w.noted (f v).run (s', l') u g' (prompt sv d (closingTick w.tick d))) :
    Leads m w.noted (do
      let used ← attempt (sv.bounded d step c)
      liftM release
      let v ← liftM used
      f v : Operation β).run (s, l) t g (prompt sv d (closingTick w.tick d)) := by
  -- The use ends by the tick of the deadline, whatever comes of it, and the close has its grace.
  have hclosed : ∀ u u', u ≤ max t (d.nextTick w.tick) →
      u' ≤ (u + closeGrace.nanos).nextTick w.tick → u' ≤ closingTick w.tick d := by
    intro u u' hu hu'
    rw [Nat.max_eq_right ht] at hu
    exact Nat.le_trans hu' (Instant.nextTick_mono (Nat.add_le_add_right hu _))
  rw [leads_then, leads_attempt, leads_bounded]
  refine Leads.ask_until ?_ ?_
  · intro latency a s₁ u hu
    simp only [onward, forward]
    refine Leads.release_prompt ?_
    intro _ _ s₂ u' g' hu'
    refine Leads.check_then ?_ fun v _ => h v s₂ _ u' g' (hclosed u u' hu hu')
    intro e he
    cases a with
    | ok v => cases he
    | error f =>
      cases he
      exact Prompt.error sv (origin_failure c f) (hclosed u u' hu hu')
  · intro latency s₁ u hu hmissed
    simp only [onward, forward]
    -- The close is made although the use timed out, and it is the last call.
    refine Leads.release_prompt ?_
    intro _ _ s₂ u' g' hu'
    refine Leads.check_then ?_ fun v hv => by cases hv
    rintro _ ⟨⟩
    refine Prompt.timeout sv ?_ (hclosed u u' hu hu')
    rw [List.append_assoc]
    exact .closing ⟨hstep, rfl, hmissed⟩ ho rfl

theorem Leads.visit_prompt {login : Login} {step : String} {c : Call} {f : c.Value → Operation β}
    (hstep : c.step? = some step) (ht : t ≤ d.nextTick w.tick)
    (h : ∀ v s' l' u g', u ≤ closingTick w.tick d →
      Leads m w.noted (f v).run (s', l') u g' (prompt sv d (closingTick w.tick d))) :
    Leads m w.noted (do
      sv.connect login d
      let used ← attempt (sv.bounded d step c)
      liftM release
      let v ← liftM used
      f v : Operation β).run (s, l) t g (prompt sv d (closingTick w.tick d)) := by
  have hclose := nextTick_le_closingTick w.tick_pos d
  refine Leads.connect_prompt sv (Nat.max_le.mpr ⟨Nat.le_trans ht hclose, hclose⟩) ?_
  intro _ s₁ u₁ g₁ hu₁
  rw [Nat.max_eq_right ht] at hu₁
  exact Leads.use_prompt sv hstep ⟨_, List.mem_append_right _ List.mem_cons_self, trivial⟩ hu₁ h

theorem Leads.loadSession_prompt {key secret : String} (ht : t ≤ d.nextTick w.tick) :
    Leads m w.noted (sv.loadSession key secret d).run (s, l) t g
      (prompt sv d (d.nextTick w.tick)) := by
  have hmax := Nat.max_eq_right ht
  rw [leads_loadSession]
  cases hcheck : checkKey key >>= fun _ => checkSecret secret with
  | error f =>
    have hinputs : f.origin = .inputs := by
      cases hkey : checkKey key with
      | error e =>
        rw [hkey] at hcheck
        cases hcheck
        exact origin_of_require hkey
      | ok _ =>
        rw [hkey] at hcheck
        exact origin_of_require hcheck
    exact Prompt.error sv hinputs ht
  | ok _ =>
    refine Leads.ask_until ?_ ?_
    · intro latency a s' u hu
      rw [hmax] at hu
      simp only [onward]
      cases hread : sv.sessionRead (some a) >>= envelopeText with
      | error f => exact Prompt.error sv (origin_of_sessionRead hread) hu
      | ok envelope =>
        simp only
        cases hopened : loginOf _ with
        | error f => exact Prompt.error sv (origin_of_loginOf hopened) hu
        | ok login => exact Prompt.ok sv login hu
    · intro latency s' u hu hmissed
      rw [hmax] at hu
      exact Prompt.timeout sv (.last ⟨rfl, rfl, hmissed⟩) hu

theorem deadlineAfter_of_representable {timeout grace : Duration}
    (h : t + timeout.nanos + grace.nanos < Instant.bound) :
    deadlineAfter t timeout = t + timeout.nanos := by
  have hlt : t + timeout.nanos < Instant.bound := Nat.lt_of_le_of_lt (Nat.le_add_right _ _) h
  rw [deadlineAfter, Instant.after?_eq_some.mpr ⟨hlt, rfl⟩]

theorem openSession_prompt (login : Login) {secret duration : String}
    (hread : lifetime duration ≠ none) (ht : t ≤ d.nextTick w.tick)
    (hd : deadlineAfter t sv.timeout = d) :
    Leads m w.noted (sv.openSession login secret duration).run (s, []) t g
      (prompt sv d (closingTick w.tick d)) := by
  have hclose := nextTick_le_closingTick w.tick_pos d
  have ht' := Nat.le_trans ht hclose
  have hmax := Nat.max_eq_right ht
  unfold Service.openSession
  refine Leads.check_then (fun _ he => Prompt.error sv (origin_of_checkLogin he) ht') ?_
  intro _ _
  refine Leads.check_then (fun _ he => Prompt.error sv (origin_of_require he) ht') ?_
  intro _ _
  rw [leads_then, leads_readLifetime]
  cases hlifetime : lifetime duration with
  | none => exact absurd hlifetime hread
  | some reading =>
  cases reading with
  | error f => exact Prompt.error sv (origin_of_lifetime hlifetime) ht'
  | ok ttl =>
  simp only [forward]
  rw [leads_deadline_then, hd]
  refine Leads.connect_prompt sv (Nat.max_le.mpr ⟨ht', hclose⟩) ?_
  intro _ s₁ u₁ _ hu₁
  rw [hmax] at hu₁
  refine Leads.release_prompt ?_
  intro _ _ s₂ u₂ _ hu₂
  -- From here on the time may be past the deadline, but not past the grace behind it.
  have hu₂ : u₂ ≤ closingTick w.tick d :=
    Nat.le_trans hu₂ (Instant.nextTick_mono (Nat.add_le_add_right hu₁ _))
  refine Leads.bounded_prompt sv rfl (Nat.max_le.mpr ⟨hu₂, hclose⟩) ?_
  intro _ key s₃ u₃ g₃ hu₃
  have hu₃ := Nat.le_trans hu₃ (Nat.max_le.mpr ⟨hu₂, hclose⟩)
  rw [leads_told_then, leads_then, leads_computation]
  cases hsealed : (w.noted.respond _ u₃ (.encrypt (Utf8.octets login.encode) secret)).answer with
  | error f => exact Prompt.error sv (origin_failure _ f) hu₃
  | ok envelope =>
  simp only [reply, forward]
  rw [leads_told_then, leads_then, leads_attempt, leads_bounded]
  refine Leads.ask_until ?_ ?_
  · intro _ a s₄ u₄ hu₄
    have hu₄ := Nat.le_trans hu₄ (Nat.max_le.mpr ⟨hu₃, hclose⟩)
    simp only [onward, forward]
    cases a with
    | error f =>
      rw [verdict, reply, leads_told_then, leads_throw_then]
      exact Prompt.error sv (origin_failure _ f) hu₄
    | ok _ =>
      rw [verdict, reply, leads_told_then, leads_ok]
      exact Prompt.ok sv key hu₄
  · intro _ s₄ u₄ hu₄ hmissed
    simp only [onward, forward, verdict]
    rw [leads_told_then, leads_throw_then]
    exact Prompt.timeout sv (.last ⟨rfl, rfl, hmissed⟩)
      (Nat.le_trans hu₄ (Nat.max_le.mpr ⟨hu₃, hclose⟩))

theorem listTables_prompt (key secret : String) (ht : t ≤ d.nextTick w.tick)
    (hd : deadlineAfter t sv.timeout = d) :
    Leads m w.noted (sv.listTables key secret).run (s, []) t g
      (prompt sv d (closingTick w.tick d)) := by
  unfold Service.listTables
  rw [leads_deadline_then, hd, leads_then]
  refine (Leads.loadSession_prompt sv ht).mono ?_
  rintro _ ⟨s₁, l₁⟩ u₁ g₁ ⟨loaded, rfl, hloaded⟩
  cases loaded with
  | error f => exact ⟨_, rfl, hloaded.failed (nextTick_le_closingTick w.tick_pos d)⟩
  | ok login =>
  rw [forward]
  refine Leads.visit_prompt sv rfl hloaded.inTime ?_
  intro tables s₂ l₂ u₂ g₂ hu₂
  rw [leads_told_then, leads_ok]
  exact Prompt.ok sv _ hu₂

theorem fetchRows_prompt (key secret : String) (q : Selection) (ht : t ≤ d.nextTick w.tick)
    (hd : deadlineAfter t sv.timeout = d) :
    Leads m w.noted (sv.fetchRows key secret q).run (s, []) t g
      (prompt sv d (closingTick w.tick d)) := by
  have hclose := nextTick_le_closingTick w.tick_pos d
  unfold Service.fetchRows
  refine Leads.check_then
    (fun _ he => Prompt.error sv (origin_of_checkSelection he) (Nat.le_trans ht hclose)) ?_
  intro _ _
  rw [leads_deadline_then, hd, leads_then]
  refine (Leads.loadSession_prompt sv ht).mono ?_
  rintro _ ⟨s₁, l₁⟩ u₁ g₁ ⟨loaded, rfl, hloaded⟩
  cases loaded with
  | error f => exact ⟨_, rfl, hloaded.failed hclose⟩
  | ok login =>
  rw [forward, leads_told_then]
  refine Leads.visit_prompt sv rfl hloaded.inTime ?_
  intro rows s₂ l₂ u₂ g₂ hu₂
  rw [leads_told_then, leads_ok]
  exact Prompt.ok sv _ hu₂

theorem closeSession_prompt (key : String) (ht : t ≤ d.nextTick w.tick)
    (hd : deadlineAfter t sv.timeout = d) :
    Leads m w.noted (sv.closeSession key).run (s, []) t g
      (prompt sv d (closingTick w.tick d)) := by
  have hclose := nextTick_le_closingTick w.tick_pos d
  have ht' := Nat.le_trans ht hclose
  unfold Service.closeSession
  refine Leads.check_then (fun _ he => Prompt.error sv (origin_of_require he) ht') ?_
  intro _ _
  rw [leads_deadline_then, hd]
  refine Leads.bounded_prompt sv rfl (Nat.max_le.mpr ⟨ht', hclose⟩) ?_
  intro _ _ s₁ u₁ g₁ hu₁
  rw [leads_told]
  exact Prompt.ok sv () (Nat.le_trans hu₁ (Nat.max_le.mpr ⟨ht', hclose⟩))

end Rules

/-- A request for an operation on sessions. A lifetime over which its reading breaks off is left
out. -/
def Request.IsOfSession : Request → Prop
  | .testConnection _ => False
  | .openSession _ _ duration => lifetime duration ≠ none
  | _ => True

def Request.notes (sv : Service) (r : Request) (w : World σ) (s : σ) (t : Instant) : List Note :=
  (r.operation sv).run.notes w s t

/-- Every operation on sessions returns, at the latest at the last tick that its deadline and the
grace allow, whatever its collaborators do and however long they take; where deadline and grace fall
on ticks, that is right at their end. If it returns a timeout, it names the configured limit and a
step whose call was not answered by the deadline, and nothing was called behind that but the close
of a connection that was there. -/
theorem serve_prompt (sv : Service) (r : Request) (w : World σ) (s : σ) (t : Instant)
    (hr : r.IsOfSession) (hclock : t + sv.timeout.nanos + closeGrace.nanos < Instant.bound) :
    let e := r.serve sv w s t
    let notes := r.notes sv w s t
    notes.map Note.call = e.calls ∧
    e.time ≤ closingTick w.tick (t + sv.timeout.nanos) ∧
    (w.tick ∣ t + sv.timeout.nanos → w.tick ∣ closeGrace.nanos →
      e.time ≤ t + sv.timeout.nanos + closeGrace.nanos) ∧
    ∃ v, e.result = .value v ∧ ∀ step limit, v = .error (.timeout step limit) →
      limit = sv.timeout ∧ TimedOut (t + sv.timeout.nanos) step notes := by
  intro e notes
  have hd := deadlineAfter_of_representable hclock
  have ht : t ≤ Instant.nextTick w.tick (t + sv.timeout.nanos) :=
    Nat.le_trans (Nat.le_add_right t _) (Instant.le_nextTick w.tick_pos _)
  have h : Leads everyCall w.noted (r.operation sv).run (s, []) t []
      (prompt sv (t + sv.timeout.nanos) (closingTick w.tick (t + sv.timeout.nanos))) := by
    cases r with
    | testConnection login => exact hr.elim
    | openSession login secret duration => exact openSession_prompt sv login hr ht hd
    | listTables key secret => exact listTables_prompt sv key secret ht hd
    | fetchRows key secret q => exact fetchRows_prompt sv key secret q ht hd
    | closeSession key => exact closeSession_prompt sv key ht hd
  obtain ⟨v, hv, hprompt⟩ := h.of_noted
  refine ⟨Program.calls_notes w _ s t, hprompt.inTime, ?_, v, hv, hprompt.timedOut⟩
  intro hdvd hgrace
  exact Nat.le_trans hprompt.inTime (Nat.le_of_eq (closingTick_of_dvd w.tick_pos hdvd hgrace))

theorem millisecondTick_pos : 0 < millisecondTick := by decide

def Call.favourable : (c : Call) → c.Answer
  | .connect _ => .ok ()
  | .listTables => .ok []
  | .query _ => .ok []
  | .close => .ok ()
  | .issueKey => .ok "key"
  | .encrypt _ _ => .ok ""
  | .decrypt _ _ => .ok []
  | .store _ => .ok none

def World.favourable (latency : Call → Latency) : World Unit where
  respond _ _ c := ⟨c.favourable, latency c, [], [], (), ()⟩
  tick_pos := millisecondTick_pos

def sampleLogin : Login := ⟨"db", ⟨6432, by decide⟩, "app", "pw", "shop", false⟩

def slowToClose : Call → Latency
  | .connect _ => .after millisecondTick
  | .close => .never
  | _ => .ready

theorem serve_prompt_sample :
    let sv : Service := ⟨⟨2 * millisecondTick, by decide⟩⟩
    let r : Request := .openSession sampleLogin "secret" "1h"
    let e := r.serve sv (.favourable slowToClose) () 0
    let notes := r.notes sv (.favourable slowToClose) () 0
    lifetime "1h" ≠ none ∧ 0 + sv.timeout.nanos + closeGrace.nanos < Instant.bound ∧
    notes.map Note.call = e.calls ∧
    e.time ≤ closingTick millisecondTick (0 + sv.timeout.nanos) ∧
    (millisecondTick ∣ 0 + sv.timeout.nanos → millisecondTick ∣ closeGrace.nanos →
      e.time ≤ 0 + sv.timeout.nanos + closeGrace.nanos) ∧
    ∃ v, e.result = .value v ∧ ∀ step limit, v = .error (.timeout step limit) →
      limit = sv.timeout ∧ TimedOut (0 + sv.timeout.nanos) step notes := by
  have hread : lifetime "1h" ≠ none := by decide +kernel
  intro sv r
  exact ⟨hread, by decide, serve_prompt sv r (.favourable slowToClose) () 0 hread (by decide)⟩

/-- Limits are kept to the tick of the clock only: with a timeout of one nanosecond and ticks of a
millisecond, an operation may end almost a millisecond after its deadline and the grace. And where
the reading of a lifetime breaks off, there is no result. -/
theorem openSession_late_and_broken :
    (let sv : Service := ⟨⟨1, by decide⟩⟩
     let r : Request := .openSession sampleLogin "secret" "1h"
     let e := r.serve sv (.favourable slowToClose) () 0
     0 + sv.timeout.nanos + closeGrace.nanos < Instant.bound ∧
       0 + sv.timeout.nanos + closeGrace.nanos < e.time) ∧
    (let sv : Service := ⟨⟨2 * millisecondTick, by decide⟩⟩
     let r : Request := .openSession sampleLogin "secret" "18446744073709551615s 1000ms"
     ¬ ∃ v, (r.serve sv (.favourable slowToClose) () 0).result = .value v) := by
  refine ⟨by decide +kernel, ?_⟩
  intro sv r ⟨v, hv⟩
  have hbroken : (r.serve sv (.favourable slowToClose) () 0).result =
      .broken Duration.Spelled.Fault.carry.message := rfl
  cases hbroken.symm.trans hv

/-- What trying a login comes to. It is refused, or the attempt to connect is in vain and over at
the last tick before the deadline; or the connection is closed, and that is waited for as long as it
takes, without an end if need be. -/
inductive Tried (login : Login) (t last : Instant) :
    List Note → Result (Except ServiceFault Unit) → Instant → Prop where
  | refused {f : ServiceFault} (h : checkLogin login = .error f) :
      Tried login t last [] (.value (.error f)) t
  | vain {latency : Latency} {a : Option (Call.connect login).Answer} {f : ServiceFault}
      {u : Instant} (ha : a ≠ some (.ok ())) (hu : u ≤ last) :
      Tried login t last [⟨.connect login, t, latency, a⟩] (.value (.error f)) u
  | closed {latency latency' : Latency} {a : Call.close.Answer} {u v : Instant} (hu : u ≤ last)
      (hv : latency'.due u = some v) :
      Tried login t last
        [⟨.connect login, t, latency, some (.ok ())⟩, ⟨.close, u, latency', some a⟩]
        (.value (a.mapError .gateway)) v
  | hanging {latency latency' : Latency} {u : Instant} (hu : u ≤ last)
      (hv : latency'.due u = none) :
      Tried login t last [⟨.connect login, t, latency, some (.ok ())⟩, ⟨.close, u, latency', none⟩]
        .endless u

theorem Leads.ask_due {m : Pick ε} {w : World σ} {s : σ} {l : List Note} {t : Instant} {g : List ε}
    {c : Call} {P : Result (Option c.Answer) → Post (σ × List Note) ε}
    (ha : ∀ latency a s' u, latency.due t = some u →
      P (.value (some a)) (s', l ++ [⟨c, t, latency, some a⟩]) u (g ++ (m c t (some a)).toList))
    (hn : ∀ latency s', latency.due t = none →
      P .endless (s', l ++ [⟨c, t, latency, none⟩]) t (g ++ (m c t none).toList)) :
    Leads m w.noted (Program.ask c .unlimited) (s, l) t g P := by
  rw [leads_ask_noted]
  generalize (w.respond s t c).latency = latency
  cases latency with
  | ready => exact ha _ _ _ t rfl
  | after nanos => exact ha _ _ _ (t + nanos) rfl
  | never => exact hn _ _ rfl

theorem testConnection_leads (sv : Service) (login : Login) {w : World σ} {s : σ} {t d : Instant}
    (ht : t ≤ d.nextTick w.tick) (hd : deadlineAfter t sv.timeout = d) :
    Leads everyCall w.noted (sv.testConnection login).run (s, []) t []
      (fun r s u _ => Tried login t (d.nextTick w.tick) s.2 r u) := by
  have hmax := Nat.max_eq_right ht
  unfold Service.testConnection
  refine Leads.check_then (fun _ he => Tried.refused he) ?_
  intro _ _
  rw [leads_deadline_then, hd, leads_then, leads_connect]
  refine Leads.ask_until ?_ fun _ _ _ hu _ => Tried.vain (by simp) (hmax ▸ hu)
  intro latency a s₁ u hu
  rw [hmax] at hu
  cases a with
  | error f => exact Tried.vain (by simp) hu
  | ok _ =>
  simp only [onward, verdict, reply, forward]
  rw [leads_then, leads_lift]
  refine Leads.ask_due ?_ fun latency' _ hv => Tried.hanging hu hv
  intro latency' a s₂ v hv
  cases a with
  | error f =>
    simp only [onward, forward, leads_told_then, leads_throw_then]
    exact Tried.closed (a := .error f) hu hv
  | ok _ =>
    simp only [onward, forward, leads_told]
    exact Tried.closed (a := .ok ()) hu hv

/-- Where each close is answered within the grace, trying a login comes to a result in time. -/
theorem Tried.inTime {login : Login} {t last u : Instant} {notes : List Note}
    {r : Result (Except ServiceFault Unit)} (h : Tried login t last notes r u) (ht : t ≤ last)
    (hclose : ∀ n ∈ notes, n.call = .close →
      ∃ v, n.latency.due n.time = some v ∧ v ≤ n.time + closeGrace.nanos) :
    (∃ v, r = .value v) ∧ u ≤ last + closeGrace.nanos := by
  cases h with
  | refused _ => exact ⟨⟨_, rfl⟩, Nat.le_trans ht (Nat.le_add_right _ _)⟩
  | vain _ hu => exact ⟨⟨_, rfl⟩, Nat.le_trans hu (Nat.le_add_right _ _)⟩
  | closed hu hv =>
    obtain ⟨v, hdue, hle⟩ := hclose _ (List.mem_cons_of_mem _ List.mem_cons_self) rfl
    obtain rfl := Option.some.inj (hv.symm.trans hdue)
    exact ⟨⟨_, rfl⟩, Nat.le_trans hle (Nat.add_le_add_right hu _)⟩
  | hanging _ hv =>
    obtain ⟨v, hdue, -⟩ := hclose _ (List.mem_cons_of_mem _ List.mem_cons_self) rfl
    cases hv.symm.trans hdue

/-- The attempt to connect of a test is kept to the deadline, the close behind it is not: the test
ends when the close is answered, and if that is within the grace, it ends in time. -/
theorem testConnection_tried (sv : Service) (login : Login) (w : World σ) (s : σ) (t : Instant)
    (hclock : t + sv.timeout.nanos + closeGrace.nanos < Instant.bound) :
    let e := (Request.testConnection login).serve sv w s t
    let notes := (Request.testConnection login).notes sv w s t
    let last := Instant.nextTick w.tick (t + sv.timeout.nanos)
    notes.map Note.call = e.calls ∧ Tried login t last notes e.result e.time ∧
    ((∀ n ∈ notes, n.call = .close →
        ∃ v, n.latency.due n.time = some v ∧ v ≤ n.time + closeGrace.nanos) →
      (∃ v, e.result = .value v) ∧ e.time ≤ last + closeGrace.nanos) := by
  intro e notes last
  have ht : t ≤ last := Nat.le_trans (Nat.le_add_right t _) (Instant.le_nextTick w.tick_pos _)
  have htried : Tried login t last notes e.result e.time :=
    (testConnection_leads sv login ht (deadlineAfter_of_representable hclock)).of_noted
  exact ⟨Program.calls_notes w _ s t, htried, htried.inTime ht⟩

theorem testConnection_tried_sample :
    let sv : Service := ⟨⟨2 * millisecondTick, by decide⟩⟩
    let e := (Request.testConnection sampleLogin).serve sv (.favourable slowToClose) () 0
    let notes := (Request.testConnection sampleLogin).notes sv (.favourable slowToClose) () 0
    let last := Instant.nextTick millisecondTick (0 + sv.timeout.nanos)
    0 + sv.timeout.nanos + closeGrace.nanos < Instant.bound ∧
    notes.map Note.call = e.calls ∧ Tried sampleLogin 0 last notes e.result e.time ∧
    ((∀ n ∈ notes, n.call = .close →
        ∃ v, n.latency.due n.time = some v ∧ v ≤ n.time + closeGrace.nanos) →
      (∃ v, e.result = .value v) ∧ e.time ≤ last + closeGrace.nanos) := by
  intro sv
  exact ⟨by decide, testConnection_tried sv sampleLogin (.favourable slowToClose) () 0 (by decide)⟩

def minuteToClose : Call → Latency
  | .close => .after (60 * nanosPerSecond)
  | _ => .ready

/-- The close of a tested connection is waited for past the deadline and the grace, and where it is
never answered there is no end. -/
theorem testConnection_outlasts_grace :
    let sv : Service := ⟨⟨nanosPerSecond, by decide⟩⟩
    let test : Request := .testConnection sampleLogin
    let e := test.serve sv (.favourable minuteToClose) () 0
    sampleLogin.missing = none ∧ 0 + sv.timeout.nanos + closeGrace.nanos < e.time ∧
    (test.serve sv (.favourable slowToClose) () 0).result = .endless := by
  exact ⟨by decide +kernel, by decide +kernel, rfl⟩

end Service
end RowGate
