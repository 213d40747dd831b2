import RowGate.Proofs.Service.Steps

/-! # Going through operations

An operation is gone through from the front: each rule here is about what comes first and says
what is left to show, of the rest if the first part gives a value, and of the end if it does not.
What a world keeps true through its calls, `I`, is at hand behind each of them.
-/
namespace RowGate.Service
variable {σ α β ε : Type}

inductive Request where
  | testConnection (login : Login)
  | openSession (login : Login) (secret duration : String)
  | listTables (key secret : String)
  | fetchRows (key secret : String) (selection : Selection)
  | closeSession (key : String)

namespace Request

@[reducible] def Value : Request → Type
  | testConnection _ => Unit
  | openSession _ _ _ => String
  | listTables _ _ => List String
  | fetchRows _ _ _ => String
  | closeSession _ => Unit

def operation (sv : Service) : (r : Request) → Operation r.Value
  | testConnection login => sv.testConnection login
  | openSession login secret duration => sv.openSession login secret duration
  | listTables key secret => sv.listTables key secret
  | fetchRows key secret selection => sv.fetchRows key secret selection
  | closeSession key => sv.closeSession key

def serve (sv : Service) (r : Request) (w : World σ) (s : σ) (t : Instant) :
    Ending σ (Except ServiceFault r.Value) := (r.operation sv).run.run w s t

end Request

section Rules
variable {m : Pick ε} {w : World σ} {s : σ} {t : Instant} {g : List ε} {I : σ → Prop}
  {P : Result (Except ServiceFault β) → Post σ ε} (sv : Service)

theorem Leads.check_then {x : Except ServiceFault α} {f : α → Operation β}
    (hf : ∀ e, x = .error e → P (.value (.error e)) s t g)
    (h : ∀ a, x = .ok a → Leads m w (f a).run s t g P) :
    Leads m w ((liftM x : Operation α) >>= f).run s t g P := by
  rw [leads_then, leads_check]
  cases hx : x with
  | error e => exact hf e hx
  | ok a => exact h a hx

/-- The lifetime is read; where the reading breaks off, so does the operation. -/
theorem Leads.readLifetime_then {duration : String} {f : Duration → Operation β}
    (hb : ∀ why, P (.broken why) s t g) (hf : ∀ e, P (.value (.error e)) s t g)
    (h : ∀ ttl, lifetime duration = some (.ok ttl) → Leads m w (f ttl).run s t g P) :
    Leads m w (readLifetime duration >>= f).run s t g P := by
  rw [leads_then, leads_readLifetime]
  cases hread : lifetime duration with
  | none => exact hb _
  | some reading =>
    cases reading with
    | error e => exact hf e
    | ok ttl => exact h ttl hread

theorem leads_deadline_then {f : Instant → Operation β} :
    Leads m w ((liftM sv.deadline : Operation Instant) >>= f).run s t g P ↔
      Leads m w (f (deadlineAfter t sv.timeout)).run s t g P :=
  leads_then.trans (leads_deadline sv)

/-- An attempt to connect gives a connection, or it was in vain and the operation ends. -/
theorem Leads.connect_then {login : Login} {d : Instant} {f : Unit → Operation β}
    (hk : w.Keeps I (.connect login)) (hs : I s)
    (hf : ∀ e s' t' a, sv.verdict "connect" (.connect login) a = .error e → I s' →
      P (.value (.error e)) s' t' (g ++ (m (.connect login) t a).toList))
    (h : ∀ s' t', I s' →
      Leads m w (f ()).run s' t' (g ++ (m (.connect login) t (some (.ok ()))).toList) P) :
    Leads m w (sv.connect login d >>= f).run s t g P := by
  rw [leads_then, leads_connect]
  refine Leads.ask (by simp) hk hs ?_
  intro s' t' a hs'
  simp only [onward]
  cases hv : sv.verdict "connect" (.connect login) a with
  | error e => exact hf e s' t' a hv hs'
  | ok _ =>
    obtain rfl := verdict_eq_ok_iff.mp hv
    exact h s' t' hs'

/-- A connection is closed, and the operation goes on whatever came of that. -/
theorem Leads.release_then {f : Unit → Operation β} (hk : w.Keeps I .close) (hs : I s)
    (h : ∀ s' t' a, I s' → Leads m w (f ()).run s' t' (g ++ (m .close t a).toList) P) :
    Leads m w ((liftM release : Operation Unit) >>= f).run s t g P := by
  rw [leads_then, leads_lift, leads_release]
  exact Leads.ask (by simp) hk hs h

theorem Leads.bounded_then {d : Instant} {step : String} {c : Call} {f : c.Value → Operation β}
    (hk : w.Keeps I c) (hs : I s)
    (hf : ∀ e s' t' a, sv.verdict step c a = .error e → I s' →
      P (.value (.error e)) s' t' (g ++ (m c t a).toList))
    (h : ∀ v s' t' a, I s' → Leads m w (f v).run s' t' (g ++ (m c t a).toList) P) :
    Leads m w (sv.bounded d step c >>= f).run s t g P := by
  rw [leads_then, leads_bounded]
  refine Leads.ask (by simp) hk hs ?_
  intro s' t' a hs'
  simp only [onward]
  cases hv : sv.verdict step c a with
  | error e => exact hf e s' t' a hv hs'
  | ok v => exact h v s' t' a hs'

/-- Behind the use of a connection comes its release, whatever came of the use. -/
theorem Leads.use_then {d : Instant} {step : String} {c : Call} {f : c.Value → Operation β}
    (hc : w.Keeps I c) (hclose : w.Keeps I .close) (hs : I s)
    (hf : ∀ e s' t₁ t₂ a b, sv.verdict step c a = .error e → I s' →
      P (.value (.error e)) s' t₂ (g ++ (m c t a).toList ++ (m .close t₁ b).toList))
    (h : ∀ v s' t₁ t₂ a b, I s' →
      Leads m w (f v).run s' t₂ (g ++ (m c t a).toList ++ (m .close t₁ b).toList) P) :
    Leads m w (do
      let used ← attempt (sv.bounded d step c)
      liftM release
      let v ← liftM used
      f v : Operation β).run s t g P := by
  rw [leads_then, leads_attempt, leads_bounded]
  refine Leads.ask (by simp) hc hs ?_
  intro s₁ t₁ a hs₁
  refine Leads.release_then hclose hs₁ ?_
  intro s₂ t₂ b hs₂
  exact Leads.check_then (fun e he => hf e s₂ t₁ t₂ a b he hs₂) fun v _ => h v s₂ t₁ t₂ a b hs₂

/-- One attempt to connect, and if a connection comes of it, one use of it; only the attempt is
picked, whatever comes of it. -/
theorem Leads.visit_then {login : Login} {d : Instant} {step : String} {c : Call}
    {f : c.Value → Operation β} {x : ε} (hconnect : w.Keeps I (.connect login)) (hc : w.Keeps I c)
    (hclose : w.Keeps I .close) (hs : I s) (hx : ∀ t a, m (.connect login) t a = some x)
    (hnc : ∀ t a, m c t a = none) (hnclose : ∀ t a, m .close t a = none)
    (hf : ∀ e s' t', I s' → P (.value (.error e)) s' t' (g ++ [x]))
    (h : ∀ v s' t', I s' → Leads m w (f v).run s' t' (g ++ [x]) P) :
    Leads m w (do
      sv.connect login d
      let used ← attempt (sv.bounded d step c)
      liftM release
      let v ← liftM used
      f v : Operation β).run s t g P := by
  refine Leads.connect_then sv hconnect hs ?_ ?_
  · intro e s' t' a _ hs'
    rw [hx]
    exact hf e s' t' hs'
  intro s' t' hs'
  refine Leads.use_then sv hc hclose hs' ?_ ?_
  · intro e s'' t₁ t₂ a b _ hs''
    rw [hx, hnc, hnclose]
    simpa using hf e s'' t₂ hs''
  · intro v s'' t₁ t₂ a b hs''
    rw [hx, hnc, hnclose]
    simpa using h v s'' t₂ hs''

end Rules

def envelopeText (stored : Octets) : Except ServiceFault String :=
  (Utf8.text stored).mapError fun f => .sealing (.malformed f.message)

def loginOf (opened : Except SealFault Octets) : Except ServiceFault Login :=
  opened.mapError .sealing >>= fun payload => (Login.decode payload).mapError .document

theorem loginOf_ok (payload : Octets) :
    loginOf (.ok payload) = (Login.decode payload).mapError .document := rfl

section Load
variable {m : Pick ε} {w : World σ} {s : σ} {t : Instant} {g : List ε} (sv : Service)

/-- A session is loaded by one call of the store and, if that gives a text, one of the codec. -/
theorem leads_loadSession {key secret : String} {d : Instant}
    {P : Result (Except ServiceFault Login) → Post σ ε} :
    Leads m w (sv.loadSession key secret d).run s t g P ↔
      match checkKey key >>= fun _ => checkSecret secret with
      | .error f => P (.value (.error f)) s t g
      | .ok _ => Leads m w (Program.ask (.store (.get key)) (.until d)) s t g
          (onward (fun a s t g =>
            match sv.sessionRead a >>= envelopeText with
            | .error f => P (.value (.error f)) s t g
            | .ok envelope =>
              let r := w.respond s t (.decrypt envelope secret)
              P (.value (loginOf r.answer)) r.state t
                (g ++ (m (.decrypt envelope secret) t (some r.answer)).toList)) P) := by
  unfold Service.loadSession
  rw [leads_then, leads_check]
  cases checkKey key with
  | error f => rfl
  | ok _ =>
  rw [forward, leads_then, leads_check]
  cases checkSecret secret with
  | error f => rfl
  | ok _ =>
  rw [forward, leads_then, leads_readSession]
  refine leads_congr ?_
  intro r s t g
  cases r with
  | broken why => exact Iff.rfl
  | endless => exact Iff.rfl
  | value answer =>
  simp only [onward]
  cases sv.sessionRead answer with
  | error f => exact Iff.rfl
  | ok stored =>
  have hstored : (Except.ok stored >>= envelopeText) = envelopeText stored := rfl
  rw [hstored, envelopeText]
  simp only [forward]
  cases Utf8.text stored with
  | error f => exact leads_throw
  | ok envelope =>
  -- The text is at hand; what is left is to open it and to decode the payload.
  refine leads_then.trans (leads_ok.trans ?_)
  refine leads_then.trans (leads_openEnvelope.trans ?_)
  change _ ↔ P (.value (loginOf (w.respond s t (.decrypt envelope secret)).answer)) _ t _
  cases (w.respond s t (.decrypt envelope secret)).answer with
  | error f => exact Iff.rfl
  | ok payload =>
  rw [loginOf_ok]
  simp only [reply, forward]
  cases Login.decode payload with
  | error f => exact leads_throw
  | ok login => exact leads_then.trans (leads_ok.trans (leads_told_then.trans leads_ok))

/-- Where nothing is picked at the calls of the store and the codec, nothing is picked here. -/
theorem Leads.loadSession_unpicked {key secret : String} {d : Instant}
    {P : Result (Except ServiceFault Login) → Post σ ε}
    (hstore : ∀ t a, m (.store (.get key)) t a = none)
    (hcodec : ∀ envelope t a, m (.decrypt envelope secret) t a = none)
    (h : ∀ r s' t', P (.value r) s' t' g) :
    Leads m w (sv.loadSession key secret d).run s t g P := by
  rw [leads_loadSession]
  split
  · exact h _ _ _
  · refine Leads.ask (by simp) (w.keeps_true _) trivial ?_
    intro s' t' answer _
    simp only [onward, hstore, hcodec, Option.toList_none, List.append_nil]
    split
    · exact h _ _ _
    · exact h _ _ _

end Load
end RowGate.Service
