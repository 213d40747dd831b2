import RowGate.Proofs.Service.Run

/-! # Steps of operations

Each step of an operation comes down to the call that it makes: what is demanded of the step is
demanded of the call, with the answer read as the step reads it. What the steps say to the log
makes no difference to where they lead.
-/
namespace RowGate.Service
variable {σ α β ε : Type}

/-- Whatever the world does about a call, and whether it is waited for or not, `I` stays true. -/
def World.Keeps (w : World σ) (I : σ → Prop) (c : Call) : Prop :=
  ∀ s t, I s → I (w.respond s t c).state ∧ I (w.respond s t c).abandoned

theorem World.keeps_true (w : World σ) (c : Call) : w.Keeps (fun _ => True) c :=
  fun _ _ _ => ⟨trivial, trivial⟩

def Response.Gives {c : Call} (r : Response σ c) (answer : Option c.Answer) (s : σ) : Prop :=
  answer = some r.answer ∧ s = r.state ∨ answer = none ∧ s = r.abandoned ∧ r.latency ≠ .ready

section Leads
variable {m : Pick ε} {w : World σ} {s : σ} {t : Instant} {g : List ε}

/-- With a limit there is an end to the waiting. -/
theorem Leads.ask_gives {c : Call} {limit : Limit} {P : Result (Option c.Answer) → Post σ ε}
    (hl : limit ≠ .unlimited)
    (h : ∀ answer s' u, (w.respond s t c).Gives answer s' →
      P (.value answer) s' u (g ++ (m c t answer).toList)) :
    Leads m w (Program.ask c limit) s t g P := by
  obtain ⟨hu, -⟩ | ⟨u, -, hu | hu⟩ := limit.waiting_cases w.tick t (w.respond s t c).latency
  · exact absurd hu hl
  · rw [leads_ask, hu]
    exact h _ _ u (.inl ⟨rfl, rfl⟩)
  · have hready : (w.respond s t c).latency ≠ .ready := by
      intro h
      rw [h, Limit.waiting_ready] at hu
      cases hu
    rw [leads_ask, hu]
    exact h _ _ u (.inr ⟨rfl, rfl, hready⟩)

theorem Leads.ask {I : σ → Prop} {c : Call} {limit : Limit}
    {P : Result (Option c.Answer) → Post σ ε} (hl : limit ≠ .unlimited) (hk : w.Keeps I c)
    (hs : I s)
    (h : ∀ s' t' answer, I s' → P (.value answer) s' t' (g ++ (m c t answer).toList)) :
    Leads m w (Program.ask c limit) s t g P := by
  refine Leads.ask_gives hl ?_
  rintro answer s' u (⟨-, rfl⟩ | ⟨-, rfl, -⟩)
  · exact h _ u _ (hk s t hs).1
  · exact h _ u _ (hk s t hs).2

/-- Without a limit there may be no end to the waiting. -/
theorem Leads.ask_unlimited {I : σ → Prop} {c : Call} {P : Result (Option c.Answer) → Post σ ε}
    (hk : w.Keeps I c) (hs : I s)
    (h : ∀ s' t' answer, I s' → P (.value answer) s' t' (g ++ (m c t answer).toList))
    (he : ∀ s', I s' → P .endless s' t (g ++ (m c t none).toList)) :
    Leads m w (Program.ask c .unlimited) s t g P := by
  rw [leads_ask]
  split
  · exact h _ _ _ (hk s t hs).1
  · exact h _ _ _ (hk s t hs).2
  · exact he _ (hk s t hs).2

theorem leads_ask_ready {c : Call} {limit : Limit} {P : Result (Option c.Answer) → Post σ ε}
    (h : (w.respond s t c).latency = .ready) :
    Leads m w (Program.ask c limit) s t g P ↔
      P (.value (some (w.respond s t c).answer)) (w.respond s t c).state t
        (g ++ (m c t (some (w.respond s t c).answer)).toList) := by
  rw [leads_ask, h, Limit.waiting_ready]

theorem leads_ok {a : α} {P : Result (Except ServiceFault α) → Post σ ε} :
    Leads m w (pure a : Operation α).run s t g P ↔ P (.value (.ok a)) s t g := leads_pure

theorem leads_throw {f : ServiceFault} {P : Result (Except ServiceFault α) → Post σ ε} :
    Leads m w (throw f : Operation α).run s t g P ↔ P (.value (.error f)) s t g := leads_pure

theorem leads_check {x : Except ServiceFault α} {P : Result (Except ServiceFault α) → Post σ ε} :
    Leads m w (liftM x : Operation α).run s t g P ↔ P (.value x) s t g := leads_pure

theorem leads_lift {p : Program α} {P : Result (Except ServiceFault α) → Post σ ε} :
    Leads m w (liftM p : Operation α).run s t g P ↔
      Leads m w p s t g (onward (fun a => P (.value (.ok a))) P) := by
  change Leads m w (p >>= fun a => pure (Except.ok a)) s t g P ↔ _
  rw [leads_bind]
  refine leads_congr ?_
  intro r s t g
  cases r with
  | value a => exact leads_pure
  | broken why => exact Iff.rfl
  | endless => exact Iff.rfl

theorem leads_attempt {x : Operation α}
    {P : Result (Except ServiceFault (Except ServiceFault α)) → Post σ ε} :
    Leads m w (Service.attempt x).run s t g P ↔
      Leads m w x.run s t g (onward (fun a => P (.value (.ok a))) P) := leads_lift

theorem leads_told {level : Log.Level} {message : String} {fields : List Log.Field}
    {P : Result (Except ServiceFault Unit) → Post σ ε} :
    Leads m w (liftM (Service.tell level message fields) : Operation Unit).run s t g P ↔
      P (.value (.ok ())) s t g :=
  leads_lift.trans leads_tell

theorem leads_told_then {level : Log.Level} {message : String} {fields : List Log.Field}
    {f : Unit → Operation α} {P : Result (Except ServiceFault α) → Post σ ε} :
    Leads m w ((liftM (Service.tell level message fields) : Operation Unit) >>= f).run s t g P ↔
      Leads m w (f ()).run s t g P :=
  leads_then.trans leads_told

theorem leads_throw_then {f : ServiceFault} {next : α → Operation β}
    {P : Result (Except ServiceFault β) → Post σ ε} :
    Leads m w ((throw f : Operation α) >>= next).run s t g P ↔ P (.value (.error f)) s t g :=
  leads_then.trans leads_throw

theorem leads_tell_pure {e : Log.Event} {a : α} {P : Result α → Post σ ε} :
    Leads m w (Program.tell e >>= fun _ => pure a) s t g P ↔ P (.value a) s t g :=
  leads_bind.trans (leads_tell.trans leads_pure)

theorem leads_readLifetime {duration : String}
    {P : Result (Except ServiceFault Duration) → Post σ ε} :
    Leads m w (Service.readLifetime duration).run s t g P ↔
      match lifetime duration with
      | some reading => P (.value reading) s t g
      | none => P (.broken Duration.Spelled.Fault.carry.message) s t g := by
  unfold Service.readLifetime
  cases lifetime duration with
  | some reading => exact leads_pure
  | none => exact leads_halt

end Leads

def reply (c : Call) : c.Answer → Except ServiceFault c.Value
  | .ok v => .ok v
  | .error f => .error (c.failure f)

def verdict (sv : Service) (step : String) (c : Call) :
    Option c.Answer → Except ServiceFault c.Value
  | some answer => reply c answer
  | none => .error (.timeout step sv.timeout)

theorem verdict_eq_ok_iff {sv : Service} {step : String} {c : Call} {a : Option c.Answer}
    {v : c.Value} : sv.verdict step c a = .ok v ↔ a = some (.ok v) := by
  rcases a with _ | (f | u)
  · simp [verdict]
  · simp [verdict, reply]
  · simp [verdict, reply]

def sessionRead (sv : Service) : Option StoreAnswer → Except ServiceFault Octets
  | some (.ok stored) => .ok (stored.getD [])
  | some (.error (.notFound _)) => .error (.known .sessionExpired)
  | some (.error f) => .error (.store f)
  | none => .error (.timeout "session store read" sv.timeout)

section Calls
variable {m : Pick ε} {w : World σ} {s : σ} {t : Instant} {g : List ε} (sv : Service)

theorem leads_deadline {P : Result (Except ServiceFault Instant) → Post σ ε} :
    Leads m w (liftM sv.deadline : Operation Instant).run s t g P ↔
      P (.value (.ok (deadlineAfter t sv.timeout))) s t g := by
  rw [leads_lift, Service.deadline, leads_bind, leads_now, onward, leads_pure, onward]

theorem leads_bounded {d : Instant} {step : String} {c : Call}
    {P : Result (Except ServiceFault c.Value) → Post σ ε} :
    Leads m w (sv.bounded d step c).run s t g P ↔
      Leads m w (Program.ask c (.until d)) s t g
        (onward (fun a => P (.value (sv.verdict step c a))) P) := by
  change Leads m w (Program.ask c (.until d) >>= _) s t g P ↔ _
  rw [leads_bind]
  refine leads_congr ?_
  intro r s t g
  cases r with
  | broken why => exact Iff.rfl
  | endless => exact Iff.rfl
  | value answer =>
    rcases answer with _ | (f | v)
    · exact leads_tell_pure
    · exact leads_pure
    · exact leads_pure

theorem leads_computation {c : Call} {P : Result (Except ServiceFault c.Value) → Post σ ε} :
    Leads m w (computed c).run s t g P ↔
      P (.value (reply c (w.respond s t c).answer)) (w.respond s t c).state t
        (g ++ (m c t (some (w.respond s t c).answer)).toList) := by
  change Leads m w (Program.computed c >>= _) s t g P ↔ _
  rw [leads_bind, leads_computed]
  cases (w.respond s t c).answer with
  | ok v => exact leads_pure
  | error f => exact leads_pure

theorem leads_connect {login : Login} {d : Instant}
    {P : Result (Except ServiceFault Unit) → Post σ ε} :
    Leads m w (sv.connect login d).run s t g P ↔
      Leads m w (Program.ask (.connect login) (.until d)) s t g
        (onward (fun a => P (.value (sv.verdict "connect" (.connect login) a))) P) := by
  change Leads m w ((sv.bounded d "connect" (.connect login)).run >>= _) s t g P ↔ _
  rw [leads_bind, leads_bounded]
  refine leads_congr ?_
  intro r s t g
  cases r with
  | broken why => exact Iff.rfl
  | endless => exact Iff.rfl
  | value answer =>
    simp only [onward]
    cases sv.verdict "connect" (.connect login) answer with
    | ok v => exact leads_tell_pure
    | error f =>
      -- A known outcome is told apart from the other failures, and returned like them.
      cases f <;> exact leads_tell_pure

theorem leads_release {P : Result Unit → Post σ ε} :
    Leads m w release s t g P ↔
      Leads m w (Program.ask .close (.within closeGrace)) s t g
        (onward (fun _ => P (.value ())) P) := by
  unfold release
  rw [leads_bind]
  refine leads_congr ?_
  intro r s t g
  cases r with
  | broken why => exact Iff.rfl
  | endless => exact Iff.rfl
  | value answer => rcases answer with _ | (f | v) <;> exact leads_tell

theorem leads_readSession {key : String} {d : Instant}
    {P : Result (Except ServiceFault Octets) → Post σ ε} :
    Leads m w (sv.readSession key d).run s t g P ↔
      Leads m w (Program.ask (.store (.get key)) (.until d)) s t g
        (onward (fun a => P (.value (sv.sessionRead a))) P) := by
  change Leads m w ((sv.bounded d "session store read" (.store (.get key))).run >>= _) s t g P ↔ _
  rw [leads_bind, leads_bounded]
  refine leads_congr ?_
  intro r s t g
  cases r with
  | broken why => exact Iff.rfl
  | endless => exact Iff.rfl
  | value answer =>
    rcases answer with _ | (f | stored)
    · exact leads_tell_pure
    · cases f <;> exact leads_tell_pure
    · exact leads_pure

theorem leads_openEnvelope {key envelope secret : String}
    {P : Result (Except ServiceFault Octets) → Post σ ε} :
    Leads m w (openEnvelope key envelope secret).run s t g P ↔
      P (.value (reply (.decrypt envelope secret)
          (w.respond s t (.decrypt envelope secret)).answer))
        (w.respond s t (.decrypt envelope secret)).state t (g ++ (m (.decrypt envelope secret) t
          (some (w.respond s t (.decrypt envelope secret)).answer)).toList) := by
  change Leads m w (Program.computed (.decrypt envelope secret) >>= _) s t g P ↔ _
  rw [leads_bind, leads_computed]
  cases (w.respond s t (.decrypt envelope secret)).answer with
  | ok v => exact leads_pure
  | error f => exact leads_tell_pure

end Calls
end RowGate.Service
