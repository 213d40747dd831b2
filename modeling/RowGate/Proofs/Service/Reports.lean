import RowGate.Proofs.Service.Origin

/-! # What collaborators report

Two things that collaborators report are told to the caller as they are: that there is no session
under a key, and that an attempt to connect failed in a way which is recognised. An operation ends
with the known outcome that such a report asks for, and with a known outcome only where there was
such a report.
-/
namespace RowGate
variable {σ α β : Type}

namespace Service

abbrev Driver (σ : Type) := σ → Instant → Login → Option ConnectFailure

/-- The gateway says that it was rejected just where it recognises how an attempt to connect failed,
and never of anything else. -/
structure World.Recognises (w : World σ) (driver : Driver σ) : Prop where
  connect : ∀ s t login why, (w.respond s t (.connect login)).answer = .error (.rejected why) ↔
    ∃ f, driver s t login = some f ∧ Rejection.ofFailure f = some why
  listTables : ∀ s t why, (w.respond s t .listTables).answer ≠ .error (.rejected why)
  query : ∀ s t sql why, (w.respond s t (.query sql)).answer ≠ .error (.rejected why)

inductive Report where
  | noSession (key : String)
  | noConnection (failure : ConnectFailure)
  deriving DecidableEq

namespace Report

def outcome? : Report → Option KnownOutcome
  | noSession _ => some .sessionExpired
  | noConnection failure => (Rejection.ofFailure failure).map .ofRejection

end Report

def World.reports (w : World σ) (driver : Driver σ) (s : σ) (t : Instant) : Call → List Report
  | .store (.get key) =>
    match (w.respond s t (.store (.get key))).answer with
    | .error (.notFound _) => [.noSession key]
    | _ => []
  | .connect login => (driver s t login).toList.map .noConnection
  | _ => []

def World.heeding (w : World σ) (driver : Driver σ) : World (σ × List Report) where
  respond s t c :=
    let r := w.respond s.1 t c
    { answer := r.answer, latency := r.latency, before := r.before, after := r.after
      state := (r.state, s.2 ++ w.reports driver s.1 t c)
      abandoned := (r.abandoned, s.2) }
  tick := w.tick
  tick_pos := w.tick_pos

def Program.reports (w : World σ) (driver : Driver σ) (p : Program α) (s : σ) (t : Instant) :
    List Report := (p.run (w.heeding driver) (s, []) t).state.2

def Call.outcome? : (c : Call) → c.Fault → Option KnownOutcome
  | .close, _ => none
  | .store (.get _), .notFound _ => some .sessionExpired
  | c, f => (c.failure f).known?

def outcomes : Pick KnownOutcome
  | c, _, some (.error f) => c.outcome? f
  | _, _, _ => none

theorem outcomes_eq_none {c : Call} {t : Instant} {a : c.Answer}
    (h : ∀ f, a = .error f → c.outcome? f = none) : outcomes c t (some a) = none := by
  cases a with
  | ok v => rfl
  | error f => exact h f rfl

theorem known?_ofGateway {f : GatewayFault} (h : ∀ why, f ≠ .rejected why) :
    (ServiceFault.ofGateway f).known? = none := by
  cases f with
  | rejected why => exact absurd rfl (h why)
  | _ => rfl

namespace World.Recognises
variable {w : World σ} {driver : Driver σ} (hw : w.Recognises driver)
include hw

theorem outcomes_connect (s : σ) (t : Instant) (login : Login) :
    outcomes (.connect login) t (some (w.respond s t (.connect login)).answer) =
      (driver s t login).bind fun f => (Rejection.ofFailure f).map .ofRejection := by
  have hconnect := hw.connect s t login
  generalize (w.respond s t (.connect login)).answer = answer at hconnect ⊢
  refine Option.ext fun o => ?_
  simp only [Option.bind_eq_some_iff, Option.map_eq_some_iff]
  constructor
  · intro ho
    rcases answer with (why | _) | _ <;> cases ho
    obtain ⟨f, hf, hwhy⟩ := (hconnect why).mp rfl
    exact ⟨f, hf, why, hwhy, rfl⟩
  · rintro ⟨f, hf, why, hwhy, rfl⟩
    rw [(hconnect why).mpr ⟨f, hf, hwhy⟩]
    rfl

/-- What is reported with an answer asks for the outcome that the answer is. -/
theorem outcomes_reports (s : σ) (t : Instant) (c : Call) :
    (w.reports driver s t c).filterMap Report.outcome? =
      (outcomes c t (some (w.respond s t c).answer)).toList := by
  have hsilent (h : ∀ f, (w.respond s t c).answer = .error f → c.outcome? f = none) :
      [] = (outcomes c t (some (w.respond s t c).answer)).toList := by
    rw [outcomes_eq_none h]
    rfl
  cases c with
  | connect login =>
    rw [hw.outcomes_connect]
    cases hf : driver s t login with
    | none => simp [World.reports, hf]
    | some f => cases h : Rejection.ofFailure f <;> simp [World.reports, hf, Report.outcome?, h]
  | listTables =>
    refine hsilent fun f hf => known?_ofGateway ?_
    rintro why rfl
    exact hw.listTables s t why hf
  | query sql =>
    refine hsilent fun f hf => known?_ofGateway ?_
    rintro why rfl
    exact hw.query s t sql why hf
  | store r =>
    cases r with
    | get key =>
      simp only [World.reports]
      rcases (w.respond s t (.store (.get key))).answer with (_ | _ | _) | _ <;> rfl
    | put key value ttl => exact hsilent fun _ _ => rfl
    | delete key => exact hsilent fun _ _ => rfl
  | close => exact hsilent fun _ _ => rfl
  | issueKey => exact hsilent fun _ _ => rfl
  | encrypt payload secret => exact hsilent fun _ _ => rfl
  | decrypt envelope secret => exact hsilent fun _ _ => rfl

end World.Recognises

/-- A run that keeps reports, with what was kept before it, is the run itself, and what was reported
asks for the known outcomes in its trace. -/
def Heeded (l : List Report) (r : Ending (σ × List Report) α) (e : Ending σ α) : Prop :=
  ∃ reports, r = ⟨e.result, e.time, (e.state, l ++ reports), e.trace⟩ ∧
    reports.filterMap Report.outcome? = outcomes.picked e.trace

theorem Heeded.behind {l new : List Report} {r : Ending (σ × List Report) α} {e : Ending σ α}
    {before : List Happening} (h : Heeded (l ++ new) r e)
    (hnew : new.filterMap Report.outcome? = outcomes.picked before) :
    Heeded l (r.behind before) (e.behind before) := by
  obtain ⟨reports, rfl, hreports⟩ := h
  refine ⟨new ++ reports, by simp [Ending.behind], ?_⟩
  rw [List.filterMap_append, hnew, hreports, Ending.behind, Pick.picked_append]

theorem Program.run_heeding {w : World σ} {driver : Driver σ} (hw : w.Recognises driver)
    (p : Program α) (s : σ) (l : List Report) (t : Instant) :
    Heeded l (p.run (w.heeding driver) (s, l) t) (p.run w s t) := by
  -- On the program: what is reported with an answer stands behind `l` when the rest begins.
  induction p generalizing s l t with
  | done a => exact ⟨[], by simp [run], rfl⟩
  | halt why => exact ⟨[], by simp [run], rfl⟩
  | say e next ih =>
    obtain ⟨reports, hrun, hreports⟩ := ih s l t
    exact ⟨reports, by simp only [run, hrun], hreports⟩
  | clock next ih => exact ih t s l t
  | call c limit next ih =>
    have hlatency : ((w.heeding driver).respond (s, l) t c).latency = (w.respond s t c).latency :=
      rfl
    have htick : (w.heeding driver).tick = w.tick := rfl
    have hanswered := hw.outcomes_reports s t c
    rw [← Pick.picked_answered] at hanswered
    have habandoned : [].filterMap Report.outcome? =
        outcomes.picked (abandoned (w.respond s t c) t) := by
      rw [Pick.picked_abandoned]
      rfl
    simp only [run, hlatency, htick]
    generalize hp : w.respond s t c = p at hanswered habandoned
    cases limit.waiting w.tick t p.latency with
    | answered u =>
      have h := (ih (some p.answer) p.state (l ++ w.reports driver s t c) u).behind hanswered
      simpa [World.heeding, hp, Ending.behind, answered] using h
    | abandoned u =>
      have h := (ih none p.abandoned (l ++ []) u).behind habandoned
      simpa [World.heeding, hp, Ending.behind, abandoned] using h
    | endless =>
      subst hp
      exact ⟨[], by simp [World.heeding], habandoned⟩
  | compute c next ih =>
    have hanswered := hw.outcomes_reports s t c
    rw [← Pick.picked_answered] at hanswered
    simp only [run]
    generalize hp : w.respond s t c = p at hanswered
    have h := (ih p.answer p.state (l ++ w.reports driver s t c) t).behind hanswered
    simpa [World.heeding, hp, Ending.behind, answered] using h

/-- A known outcome came up just where an operation ends with it. An operation comes to an end,
unless it waits for a connection to close as long as that takes. -/
inductive Traced (lingers : Prop) : Result (Except ServiceFault α) → List KnownOutcome → Prop where
  | ok (v : α) : Traced lingers (.value (.ok v)) []
  | error (f : ServiceFault) : Traced lingers (.value (.error f)) f.known?.toList
  | broken (why : String) : Traced lingers (.broken why) []
  | endless (h : lingers) : Traced lingers .endless []

theorem Traced.mem_iff {lingers : Prop} {r : Result (Except ServiceFault α)}
    {os : List KnownOutcome} (h : Traced lingers r os) (o : KnownOutcome) :
    o ∈ os ↔ r = .value (.error (.known o)) := by
  cases h with
  | ok v => simp
  | error f => cases f <;> simp [ServiceFault.known?, eq_comm]
  | broken why => simp
  | endless h => simp

theorem Traced.of_endless {lingers : Prop} {os : List KnownOutcome}
    (h : Traced lingers (.endless : Result (Except ServiceFault α)) os) : lingers := by
  cases h with
  | endless h => exact h

theorem known?_of_inputs {f : ServiceFault} (h : f.origin = .inputs) : f.known? = none := by
  cases f with
  | known o => cases h
  | _ => rfl

theorem Traced.internal {lingers : Prop} {f : ServiceFault} (h : f.known? = none) :
    Traced lingers (.value (.error f) : Result (Except ServiceFault α)) [] := by
  have herror : Traced lingers (.value (.error f) : Result (Except ServiceFault α)) _ := .error f
  rwa [h] at herror

def traced (lingers : Prop) : Result (Except ServiceFault α) → Post σ KnownOutcome :=
  fun r _ _ os => Traced lingers r os

/-- A failed step is the outcome that the failed call is. -/
theorem outcomes_of_verdict {sv : Service} {step : String} {c : Call} {t : Instant}
    {a : Option c.Answer} {e : ServiceFault} (hc : ∀ f, c.outcome? f = (c.failure f).known?)
    (h : sv.verdict step c a = .error e) : outcomes c t a = e.known? := by
  rcases a with _ | (f | v)
  · cases h
    rfl
  · cases h
    exact hc f
  · cases h

theorem outcomes_of_sessionRead {sv : Service} {key : String} {t : Instant}
    {a : Option StoreAnswer} {e : ServiceFault} (h : sv.sessionRead a >>= envelopeText = .error e) :
    outcomes (.store (.get key)) t a = e.known? := by
  rcases a with _ | (f | stored)
  · cases h
    rfl
  · cases f <;> cases h <;> rfl
  · obtain ⟨f, rfl⟩ := exists_of_envelopeText h
    rfl

theorem outcomes_of_read {sv : Service} {key envelope : String} {t : Instant}
    {a : Option StoreAnswer} (h : sv.sessionRead a >>= envelopeText = .ok envelope) :
    outcomes (.store (.get key)) t a = none := by
  rcases a with _ | (f | stored)
  · rfl
  · cases f <;> cases h
  · rfl

section Rules
variable {w : World σ} {s : σ} {t d : Instant} {lingers : Prop} (sv : Service)

theorem Leads.check_traced {x : Except ServiceFault α} {f : α → Operation β}
    (hx : ∀ e, x = .error e → e.origin = .inputs)
    (h : ∀ a, Leads outcomes w (f a).run s t [] (traced lingers)) :
    Leads outcomes w ((liftM x : Operation α) >>= f).run s t [] (traced lingers) :=
  Leads.check_then (fun e he => .internal (known?_of_inputs (hx e he))) fun a _ => h a

theorem Leads.bounded_traced {step : String} {c : Call} {f : c.Value → Operation β}
    (hc : ∀ f, c.outcome? f = (c.failure f).known?)
    (h : ∀ v s' t', Leads outcomes w (f v).run s' t' [] (traced lingers)) :
    Leads outcomes w (sv.bounded d step c >>= f).run s t [] (traced lingers) := by
  rw [leads_then, leads_bounded]
  refine Leads.ask (by simp) (w.keeps_true c) trivial ?_
  intro s' t' a _
  simp only [onward]
  cases hv : sv.verdict step c a with
  | error e =>
    rw [outcomes_of_verdict hc hv]
    exact .error e
  | ok v =>
    obtain rfl := verdict_eq_ok_iff.mp hv
    exact h v s' t'

theorem Leads.connect_traced {login : Login} {f : Unit → Operation β}
    (h : ∀ s' t', Leads outcomes w (f ()).run s' t' [] (traced lingers)) :
    Leads outcomes w (sv.connect login d >>= f).run s t [] (traced lingers) := by
  rw [leads_then, leads_connect, ← leads_bounded, ← leads_then]
  exact Leads.bounded_traced sv (fun _ => rfl) fun _ s' t' => h s' t'

theorem outcomes_close (t : Instant) (a : Option Call.close.Answer) :
    outcomes .close t a = none := by
  rcases a with _ | (_ | _) <;> rfl

theorem Leads.release_traced {f : Unit → Operation β}
    (h : ∀ s' t', Leads outcomes w (f ()).run s' t' [] (traced lingers)) :
    Leads outcomes w ((liftM release : Operation Unit) >>= f).run s t [] (traced lingers) := by
  refine Leads.release_then (w.keeps_true .close) trivial ?_
  intro s' t' a _
  rw [outcomes_close]
  exact h s' t'

/-- A connection, its use and its release. -/
theorem Leads.visit_traced {login : Login} {step : String} {c : Call} {f : c.Value → Operation β}
    (hc : ∀ f, c.outcome? f = (c.failure f).known?)
    (h : ∀ v s' t', Leads outcomes w (f v).run s' t' [] (traced lingers)) :
    Leads outcomes w (do
      sv.connect login d
      let used ← attempt (sv.bounded d step c)
      liftM release
      let v ← liftM used
      f v : Operation β).run s t [] (traced lingers) := by
  refine Leads.connect_traced sv ?_
  intro s₁ t₁
  rw [leads_then, leads_attempt, leads_bounded]
  refine Leads.ask (by simp) (w.keeps_true c) trivial ?_
  intro s₂ t₂ a _
  simp only [onward, forward]
  refine Leads.release_then (w.keeps_true .close) trivial ?_
  intro s₃ t₃ b _
  rw [outcomes_close]
  refine Leads.check_then ?_ ?_
  · intro e he
    rw [outcomes_of_verdict hc he, Option.toList_none, List.append_nil]
    exact .error e
  · intro v hv
    obtain rfl := verdict_eq_ok_iff.mp hv
    exact h v s₃ t₃

theorem Leads.load_traced {key secret : String} {f : Login → Operation β}
    (h : ∀ login s' t', Leads outcomes w (f login).run s' t' [] (traced lingers)) :
    Leads outcomes w (sv.loadSession key secret d >>= f).run s t [] (traced lingers) := by
  rw [leads_then, leads_loadSession]
  cases hkey : checkKey key with
  | error e => exact .internal (known?_of_inputs (origin_of_require hkey))
  | ok _ =>
  cases hsecret : checkSecret secret with
  | error e => exact .internal (known?_of_inputs (origin_of_require hsecret))
  | ok _ =>
  refine Leads.ask (by simp) (w.keeps_true _) trivial ?_
  intro s₁ t₁ a _
  simp only [onward]
  cases hread : sv.sessionRead a >>= envelopeText with
  | error e =>
    rw [outcomes_of_sessionRead hread]
    exact .error e
  | ok envelope =>
  -- What was stored is a text, so nothing came up; whatever fails from here on is no known outcome.
  have hstored : outcomes (.store (.get key)) t a = none := outcomes_of_read hread
  have hopened (a : Except SealFault Octets) :
      outcomes (.decrypt envelope secret) t₁ (some a) = none := outcomes_eq_none fun _ _ => rfl
  simp only [hstored, hopened]
  cases hlogin : loginOf (w.respond s₁ t₁ (.decrypt envelope secret)).answer with
  | error e =>
    refine .internal ?_
    obtain ⟨f, rfl⟩ | ⟨f, rfl⟩ := exists_of_loginOf hlogin <;> rfl
  | ok login => exact h login _ t₁

theorem testConnection_traced (login : Login) :
    Leads outcomes w (sv.testConnection login).run s t [] (traced True) := by
  unfold Service.testConnection
  refine Leads.check_traced (fun _ he => origin_of_checkLogin he) fun _ => ?_
  rw [leads_deadline_then]
  refine Leads.connect_traced sv ?_
  intro s₁ t₁
  rw [leads_then, leads_lift]
  refine Leads.ask_unlimited (w.keeps_true .close) trivial ?_ fun _ _ => .endless trivial
  intro s₂ t₂ a _
  rw [outcomes_close]
  rcases a with _ | (f | v)
  · simp only [onward, forward, leads_told]
    exact .ok ()
  · simp only [onward, forward, leads_told_then, leads_throw_then]
    exact .internal rfl
  · simp only [onward, forward, leads_told]
    exact .ok ()

theorem openSession_traced (login : Login) (secret duration : String) :
    Leads outcomes w (sv.openSession login secret duration).run s t [] (traced False) := by
  unfold Service.openSession
  refine Leads.check_traced (fun _ he => origin_of_checkLogin he) fun _ => ?_
  refine Leads.check_traced (fun _ he => origin_of_require he) fun _ => ?_
  rw [leads_then, leads_readLifetime]
  cases hread : lifetime duration with
  | none => exact .broken _
  | some reading =>
  cases reading with
  | error e => exact .internal (known?_of_inputs (origin_of_lifetime hread))
  | ok ttl =>
  simp only [forward]
  rw [leads_deadline_then]
  refine Leads.connect_traced sv fun s₁ t₁ => ?_
  refine Leads.release_traced fun s₂ t₂ => ?_
  refine Leads.bounded_traced sv (fun _ => rfl) ?_
  intro key s₃ t₃
  rw [leads_told_then, leads_then, leads_computation]
  cases (w.respond s₃ t₃ (.encrypt (Utf8.octets login.encode) secret)).answer with
  | error f => exact .internal rfl
  | ok envelope =>
  simp only [reply, forward]
  rw [leads_told_then, leads_then, leads_attempt, leads_bounded]
  refine Leads.ask (by simp) (w.keeps_true _) trivial ?_
  intro s₄ t₄ a _
  simp only [onward, forward]
  cases hput : sv.verdict "session store write" _ a with
  | error e =>
    rw [leads_told_then, leads_throw_then, outcomes_of_verdict (fun _ => rfl) hput]
    exact .error e
  | ok _ =>
    obtain rfl := verdict_eq_ok_iff.mp hput
    rw [leads_told_then, leads_ok]
    exact .ok key

theorem listTables_traced (key secret : String) :
    Leads outcomes w (sv.listTables key secret).run s t [] (traced False) := by
  unfold Service.listTables
  rw [leads_deadline_then]
  refine Leads.load_traced sv fun login s₁ t₁ => ?_
  refine Leads.visit_traced sv (fun _ => rfl) fun tables s₂ t₂ => ?_
  rw [leads_told_then, leads_ok]
  exact .ok _

theorem fetchRows_traced (key secret : String) (q : Selection) :
    Leads outcomes w (sv.fetchRows key secret q).run s t [] (traced False) := by
  unfold Service.fetchRows
  refine Leads.check_traced (fun _ he => origin_of_checkSelection he) fun _ => ?_
  rw [leads_deadline_then]
  refine Leads.load_traced sv fun login s₁ t₁ => ?_
  rw [leads_told_then]
  refine Leads.visit_traced sv (fun _ => rfl) fun rows s₂ t₂ => ?_
  rw [leads_told_then, leads_ok]
  exact .ok _

theorem closeSession_traced (key : String) :
    Leads outcomes w (sv.closeSession key).run s t [] (traced False) := by
  unfold Service.closeSession
  refine Leads.check_traced (fun _ he => origin_of_require he) fun _ => ?_
  rw [leads_deadline_then]
  refine Leads.bounded_traced sv (fun _ => rfl) fun _ s₁ t₁ => ?_
  rw [leads_told]
  exact .ok ()

end Rules

def Request.IsTest : Request → Prop
  | testConnection _ => True
  | _ => False

theorem Request.serve_traced (sv : Service) (r : Request) (w : World σ) (s : σ) (t : Instant) :
    let e := r.serve sv w s t
    Traced r.IsTest e.result (outcomes.picked e.trace) := by
  cases r with
  | testConnection login => exact testConnection_traced sv login
  | openSession login secret duration => exact openSession_traced sv login secret duration
  | listTables key secret => exact listTables_traced sv key secret
  | fetchRows key secret q => exact fetchRows_traced sv key secret q
  | closeSession key => exact closeSession_traced sv key

def Request.reports (sv : Service) (r : Request) (w : World σ) (driver : Driver σ) (s : σ)
    (t : Instant) : List Report := (r.operation sv).run.reports w driver s t

/-- A request fails with a known outcome just where something was reported that asks for it. -/
theorem Request.known_iff_reported {w : World σ} {driver : Driver σ} (hw : w.Recognises driver)
    (sv : Service) (r : Request) (s : σ) (t : Instant) (o : KnownOutcome) :
    (r.serve sv w s t).result = .value (.error (.known o)) ↔
      ∃ report ∈ r.reports sv w driver s t, report.outcome? = some o := by
  have htraced := (r.serve_traced sv w s t).mem_iff o
  obtain ⟨reports, hrun, hreports⟩ := Program.run_heeding hw (r.operation sv).run s [] t
  have hkept : r.reports sv w driver s t = reports := by
    rw [Request.reports, Program.reports, hrun]
    rfl
  rw [← htraced, Request.serve, ← hreports, List.mem_filterMap, hkept]

end Service
end RowGate
