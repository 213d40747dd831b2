import RowGate.Proofs.Service.Operations

/-! # Connections are closed

The calls that concern connections, marked in the order in which an operation makes them, follow
one of four patterns in every world: none at all, one attempt in vain, or a connection that is
closed at once or after one use. Every failure and every answer that does not come in time ends
in one of the patterns too, so no connection is left open and none is used once closed.
-/
namespace RowGate.Service
variable {σ α : Type}

inductive Mark where
  | attempted
  | connected
  | used
  | closed
  deriving DecidableEq

/-- The mark of a call; an attempt to connect counts as `connected` only if a connection came of
it in time. -/
def marks : Pick Mark
  | .connect _, _, some (.ok _) => some .connected
  | .connect _, _, _ => some .attempted
  | .listTables, _, _ => some .used
  | .query _, _, _ => some .used
  | .close, _, _ => some .closed
  | _, _, _ => none

/-- There was at most one attempt to connect, each connection was closed once, and it was used and
closed only while it was open. -/
structure Ledger (l : List Mark) : Prop where
  one_attempt : l.count .attempted + l.count .connected ≤ 1
  closed_once : l.count .closed = l.count .connected
  open_before : ∀ before x after, l = before ++ x :: after → x = .used ∨ x = .closed →
    .connected ∈ before ∧ .closed ∉ before

inductive Orderly : List Mark → Prop where
  | idle : Orderly []
  | attempted : Orderly [.attempted]
  | closed : Orderly [.connected, .closed]
  | used : Orderly [.connected, .used, .closed]

/-- In each pattern a connection was made before it is used or closed, and not closed before. -/
theorem Orderly.open_before {l before after : List Mark} {x : Mark} (h : Orderly l)
    (hl : l = before ++ x :: after) (hx : x = .used ∨ x = .closed) :
    .connected ∈ before ∧ .closed ∉ before := by
  cases h with
  | idle => simp at hl
  | attempted =>
    obtain ⟨-, rfl, -⟩ : before = [] ∧ x = .attempted ∧ after = [] := by
      simpa [List.cons_eq_append_iff] using hl
    simp at hx
  | closed =>
    simp only [List.cons_eq_append_iff, List.cons.injEq, List.nil_eq, List.append_eq_nil_iff,
      reduceCtorEq, and_false, exists_const, or_false] at hl
    obtain ⟨-, rfl, -⟩ | ⟨_, rfl, rfl, -⟩ := hl
    · simp at hx
    · simp
  | used =>
    simp only [List.cons_eq_append_iff, List.cons.injEq, List.nil_eq, List.append_eq_nil_iff,
      reduceCtorEq, and_false, exists_const, or_false] at hl
    obtain ⟨-, rfl, -⟩ | ⟨_, rfl, ⟨rfl, -⟩ | ⟨_, rfl, rfl, -⟩⟩ := hl
    · simp at hx
    · simp
    · simp

theorem Orderly.ledger {l : List Mark} (h : Orderly l) : Ledger l where
  one_attempt := by cases h <;> decide
  closed_once := by cases h <;> decide
  open_before _ _ _ hl hx := h.open_before hl hx

section Patterns
variable (sv : Service) {w : World σ} {s : σ} {t : Instant} {g : List Mark}

def orderly : Result α → Post σ Mark := fun _ _ _ g => Orderly g

theorem Orderly.of_vain {login : Login} {a : Option (Call.connect login).Answer} {f : ServiceFault}
    (h : sv.verdict "connect" (.connect login) a = .error f) :
    Orderly ([] ++ (marks (.connect login) t a).toList) := by
  rcases a with _ | (e | _)
  · exact .attempted
  · exact .attempted
  · cases h

theorem testConnection_orderly (login : Login) :
    Leads marks w (sv.testConnection login).run s t [] orderly := by
  unfold Service.testConnection
  refine Leads.check_then (fun _ _ => Orderly.idle) ?_
  intro _ _
  rw [leads_deadline_then]
  refine Leads.connect_then sv (w.keeps_true _) trivial
    (fun _ _ _ _ ha _ => Orderly.of_vain sv ha) ?_
  intro s' t' _
  rw [leads_then, leads_lift]
  refine Leads.ask_unlimited (w.keeps_true _) trivial ?_ fun s' _ => Orderly.closed
  intro s' t' answer _
  rcases answer with _ | (f | v)
  · simp only [onward, forward, leads_told]
    exact Orderly.closed
  · simp only [onward, forward, leads_told_then, leads_throw_then]
    exact Orderly.closed
  · simp only [onward, forward, leads_told]
    exact Orderly.closed

theorem openSession_orderly (login : Login) (secret duration : String) :
    Leads marks w (sv.openSession login secret duration).run s t [] orderly := by
  unfold Service.openSession
  refine Leads.check_then (fun _ _ => Orderly.idle) ?_
  intro _ _
  refine Leads.check_then (fun _ _ => Orderly.idle) ?_
  intro _ _
  refine Leads.readLifetime_then (fun _ => Orderly.idle) (fun _ => Orderly.idle) ?_
  intro ttl _
  rw [leads_deadline_then]
  refine Leads.connect_then sv (w.keeps_true _) trivial
    (fun _ _ _ _ ha _ => Orderly.of_vain sv ha) ?_
  intro s' t' _
  -- From here on the connection is closed, and no other call concerns connections.
  refine Leads.release_then (w.keeps_true _) trivial ?_
  intro s' t' _ _
  refine Leads.bounded_then sv (w.keeps_true _) trivial (fun _ _ _ _ _ _ => Orderly.closed) ?_
  intro key s' t' _ _
  rw [leads_told_then, leads_then, leads_computation]
  cases (w.respond s' t' (.encrypt (Utf8.octets login.encode) secret)).answer with
  | error f => exact Orderly.closed
  | ok envelope =>
  simp only [reply, forward]
  rw [leads_told_then, leads_then, leads_attempt, leads_bounded]
  refine Leads.ask (by simp) (w.keeps_true _) trivial ?_
  intro s' t' answer _
  simp only [onward, forward]
  cases sv.verdict _ _ answer with
  | error f =>
    rw [leads_told_then, leads_throw_then]
    exact Orderly.closed
  | ok _ =>
    rw [leads_told_then, leads_ok]
    exact Orderly.closed

theorem listTables_orderly (key secret : String) :
    Leads marks w (sv.listTables key secret).run s t [] orderly := by
  unfold Service.listTables
  rw [leads_deadline_then, leads_then]
  refine Leads.loadSession_unpicked sv (fun _ _ => rfl) (fun _ _ _ => rfl) ?_
  intro loaded s' t'
  cases loaded with
  | error f => exact Orderly.idle
  | ok login =>
  simp only [forward]
  refine Leads.connect_then sv (w.keeps_true _) trivial
    (fun _ _ _ _ ha _ => Orderly.of_vain sv ha) ?_
  intro s' t' _
  refine Leads.use_then sv (w.keeps_true _) (w.keeps_true _) trivial
    (fun _ _ _ _ _ _ _ _ => Orderly.used) ?_
  intro tables s' _ t' _ _ _
  rw [leads_told_then, leads_ok]
  exact Orderly.used

theorem fetchRows_orderly (key secret : String) (q : Selection) :
    Leads marks w (sv.fetchRows key secret q).run s t [] orderly := by
  unfold Service.fetchRows
  refine Leads.check_then (fun _ _ => Orderly.idle) ?_
  intro _ _
  rw [leads_deadline_then, leads_then]
  refine Leads.loadSession_unpicked sv (fun _ _ => rfl) (fun _ _ _ => rfl) ?_
  intro loaded s' t'
  cases loaded with
  | error f => exact Orderly.idle
  | ok login =>
  simp only [forward]
  rw [leads_told_then]
  refine Leads.connect_then sv (w.keeps_true _) trivial
    (fun _ _ _ _ ha _ => Orderly.of_vain sv ha) ?_
  intro s' t' _
  refine Leads.use_then sv (w.keeps_true _) (w.keeps_true _) trivial
    (fun _ _ _ _ _ _ _ _ => Orderly.used) ?_
  intro rows s' _ t' _ _ _
  rw [leads_told_then, leads_ok]
  exact Orderly.used

theorem closeSession_orderly (key : String) :
    Leads marks w (sv.closeSession key).run s t [] orderly := by
  unfold Service.closeSession
  refine Leads.check_then (fun _ _ => Orderly.idle) ?_
  intro _ _
  rw [leads_deadline_then]
  refine Leads.bounded_then sv (w.keeps_true _) trivial (fun _ _ _ _ _ _ => Orderly.idle) ?_
  intro _ s' t' _ _
  rw [leads_told]
  exact Orderly.idle

/-- The marks of every run follow one of the patterns. -/
theorem serve_orderly (r : Request) (w : World σ) (s : σ) (t : Instant) :
    Orderly (marks.picked (r.serve sv w s t).trace) := by
  have h : Leads marks w (r.operation sv).run s t [] orderly := by
    cases r with
    | testConnection login => exact testConnection_orderly sv login
    | openSession login secret duration => exact openSession_orderly sv login secret duration
    | listTables key secret => exact listTables_orderly sv key secret
    | fetchRows key secret q => exact fetchRows_orderly sv key secret q
    | closeSession key => exact closeSession_orderly sv key
  exact h

end Patterns

/-- Whatever is asked, and however the gateway, the store, the issuer and the codec answer or fail
to answer, the connections of the run are accounted for. -/
theorem serve_ledger (sv : Service) (r : Request) (w : World σ) (s : σ) (t : Instant) :
    Ledger (marks.picked (r.serve sv w s t).trace) := (serve_orderly sv r w s t).ledger

end RowGate.Service
