import RowGate.Proofs.Duration.Spelled
import RowGate.Proofs.Service.Deadline
import RowGate.Proofs.Text

/-! # Inputs are screened first

What can be held against the inputs of a request stands in an order, and the first of it decides:
the operation fails with just that, before any call is made. Where nothing can be held against the
inputs, no collaborator can make the operation fail as if there were. One objection cannot be told,
that to a duration over which the reading breaks off; there the operation breaks off as well.
-/
namespace RowGate

namespace Service
variable {σ α β : Type}

inductive Objection where
  | absent (member : String)
  | unspelled (duration : String) (why : Duration.Spelled.Fault)
  | zero (duration : String)
  deriving DecidableEq

namespace Objection

def fault? : Objection → Option ServiceFault
  | absent member => some (.invalidInput (member ++ " is required"))
  | unspelled duration why =>
    if why.isTold then some (.invalidDuration duration why.message) else none
  | zero duration => some (.invalidDuration duration "duration must be positive")

end Objection

def objection (p : Prop) [Decidable p] (o : Objection) : List Objection := if p then [o] else []

def loginObjections (l : Login) : List Objection :=
  objection (Text.trim l.host = "") (.absent "host") ++
  objection (l.port.val = 0) (.absent "port") ++
  objection (l.user = "") (.absent "username") ++
  objection (l.password = "") (.absent "password") ++
  objection (l.database = "") (.absent "databaseName")

def selectionObjections (q : Selection) : List Objection :=
  objection (Text.trim q.table = "") (.absent "tableName")

def keyObjections (key : String) : List Objection :=
  objection (Text.trim key = "") (.absent "sessionKey")

def secretObjections (secret : String) : List Objection :=
  objection (secret = "") (.absent "secret")

def durationObjections (duration : String) : List Objection :=
  match Duration.Spelled.nanos (Text.trimmed duration.toList) with
  | .error why => [.unspelled duration why]
  | .ok n => objection (n = 0) (.zero duration)

def Request.objections : Request → List Objection
  | testConnection login => loginObjections login
  | openSession login secret duration =>
    loginObjections login ++ secretObjections secret ++ durationObjections duration
  | listTables key secret => keyObjections key ++ secretObjections secret
  | fetchRows key secret selection =>
    selectionObjections selection ++ keyObjections key ++ secretObjections secret
  | closeSession key => keyObjections key

/-- A check, which may break off, decides by the first of some objections. -/
inductive Judges : Option (Except ServiceFault α) → List Objection → Prop where
  | passed (a : α) : Judges (some (.ok a)) []
  | refused {o : Objection} {f : ServiceFault} (h : o.fault? = some f) (rest : List Objection) :
      Judges (some (.error f)) (o :: rest)
  | broken {o : Objection} (h : o.fault? = none) (rest : List Objection) : Judges none (o :: rest)

theorem judges_require {present : Bool} {p : Prop} [Decidable p] {member : String}
    (h : p ↔ present = false) :
    Judges (some (require present member)) (objection p (.absent member)) := by
  cases present with
  | true =>
    rw [objection, if_neg (by simp [h])]
    exact .passed ()
  | false =>
    rw [objection, if_pos (by simp [h])]
    exact .refused rfl []

theorem judges_checkKey (key : String) : Judges (some (checkKey key)) (keyObjections key) :=
  judges_require (by simp [Text.trim_eq_empty_iff])

theorem judges_checkSecret (secret : String) :
    Judges (some (checkSecret secret)) (secretObjections secret) :=
  judges_require (by simp)

inductive Names : Option String → List Objection → Prop where
  | nothing : Names none []
  | first (member : String) (rest : List Objection) :
      Names (some member) (.absent member :: rest)

theorem Names.ite {p q : Prop} [Decidable p] [Decidable q] {x : Option String}
    {os : List Objection} (hpq : p ↔ q) (member : String) (h : Names x os) :
    Names (if q then some member else x) (objection p (.absent member) ++ os) := by
  by_cases hp : p
  · rw [objection, if_pos hp, if_pos (hpq.mp hp)]
    exact .first member os
  · rw [objection, if_neg hp, if_neg (mt hpq.mpr hp)]
    exact h

theorem Names.judges {x : Option String} {os : List Objection} (h : Names x os) :
    Judges (some (match x with
      | some member => .error (.missing member)
      | none => .ok ())) os := by
  cases h with
  | nothing => exact .passed ()
  | first member rest => exact .refused rfl rest

theorem judges_checkSelection (q : Selection) :
    Judges (some (checkSelection q)) (selectionObjections q) := by
  have h : Names q.missing (selectionObjections q) := by
    have htable := Names.ite (Text.trim_eq_empty_iff q.table) "tableName" .nothing
    rwa [List.append_nil] at htable
  exact h.judges

theorem judges_checkLogin (l : Login) : Judges (some (checkLogin l)) (loginObjections l) := by
  have hempty (text : String) : text = "" ↔ text.isEmpty = true := String.isEmpty_iff.symm
  have h : Names l.missing (loginObjections l) := by
    have hdatabase := Names.ite (hempty l.database) "databaseName" .nothing
    have hpassword := Names.ite (hempty l.password) "password" hdatabase
    have huser := Names.ite (hempty l.user) "username" hpassword
    have hport := Names.ite (Iff.refl (l.port.val = 0)) "port" huser
    have hhost := Names.ite (Text.trim_eq_empty_iff l.host) "host" hport
    simpa [loginObjections, Login.missing] using hhost
  exact h.judges

theorem judges_lifetime (duration : String) :
    Judges (lifetime duration) (durationObjections duration) := by
  unfold lifetime durationObjections
  cases hread : Duration.Spelled.nanos (Text.trimmed duration.toList) with
  | error why =>
    by_cases htold : why.isTold = true
    · have hfault : (Objection.unspelled duration why).fault? =
          some (.invalidDuration duration why.message) := if_pos htold
      simp only [htold, if_true]
      exact .refused hfault []
    · have hfault : (Objection.unspelled duration why).fault? = none := if_neg htold
      simp only [htold]
      exact .broken hfault []
  | ok n =>
    -- What is read is in range, so only a duration of no length is left to object to.
    have hrange := Duration.Spelled.nanos_lt hread
    simp only [Duration.ofNanos?, dif_pos hrange, Duration.isZero, beq_iff_eq, objection]
    by_cases hn : n = 0
    · rw [if_pos hn, if_pos hn]
      exact .refused rfl []
    · rw [if_neg hn, if_neg hn]
      exact .passed _

/-- The first of some objections decides what comes of an operation and that no call is made. With
no objection, the operation neither fails as if there were one nor breaks off. -/
structure Screened (os : List Objection) (result : Result (Except ServiceFault α))
    (calls : List Call) : Prop where
  refused : ∀ f, f.origin = .inputs →
    (result = .value (.error f) ↔ ∃ o, os.head? = some o ∧ o.fault? = some f)
  broken : (∃ why, result = .broken why) ↔ ∃ o, os.head? = some o ∧ o.fault? = none
  uncalled : os ≠ [] → calls = []

structure Granted (result : Result (Except ServiceFault α)) : Prop where
  unbroken : ∀ why, result ≠ .broken why
  unrefused : ∀ f, result = .value (.error f) → f.origin ≠ .inputs

namespace Granted

theorem ok (a : α) : Granted (.value (.ok a)) where
  unbroken why h := by cases h
  unrefused f h := by cases h

theorem error {f : ServiceFault} (hf : f.origin ≠ .inputs) :
    Granted (.value (.error f) : Result (Except ServiceFault α)) where
  unbroken why h := by cases h
  unrefused f' h := by cases h; exact hf

theorem endless : Granted (.endless : Result (Except ServiceFault α)) where
  unbroken why h := by cases h
  unrefused f h := by cases h

theorem screened {result : Result (Except ServiceFault α)} (h : Granted result)
    (calls : List Call) : Screened [] result calls where
  refused f hf := by
    refine ⟨fun hr => absurd hf (h.unrefused f hr), ?_⟩
    rintro ⟨o, ho, -⟩
    cases ho
  broken := by
    refine ⟨fun ⟨why, hr⟩ => absurd hr (h.unbroken why), ?_⟩
    rintro ⟨o, ho, -⟩
    cases ho
  uncalled hne := absurd rfl hne

end Granted

theorem Screened.of_refused {o : Objection} {f : ServiceFault} (ho : o.fault? = some f)
    (rest : List Objection) :
    Screened (o :: rest) (.value (.error f) : Result (Except ServiceFault α)) [] where
  refused f' _ := by simp [ho]
  broken := by simp [ho]
  uncalled _ := rfl

theorem Screened.of_broken {o : Objection} (ho : o.fault? = none) (rest : List Objection)
    (why : String) :
    Screened (o :: rest) (.broken why : Result (Except ServiceFault α)) [] where
  refused f' _ := by simp [ho]
  broken := by simp [ho]
  uncalled _ := rfl

def screened (os : List Objection) : Result (Except ServiceFault α) → Post σ Call :=
  fun r _ _ calls => Screened os r calls

def granted : Result (Except ServiceFault α) → Post σ Call := fun r _ _ _ => Granted r

section Rules
variable {w : World σ} {s : σ} {t d : Instant} {g : List Call} {os rest : List Objection}

theorem Leads.screened {p : Operation α} (h : Leads everyCall w p.run s t g granted) :
    Leads everyCall w p.run s t g (screened []) :=
  h.mono fun _ _ _ calls hr => hr.screened calls

theorem Leads.check_screened {x : Except ServiceFault α} {f : α → Operation β}
    (hx : Judges (some x) os)
    (h : ∀ a, Leads everyCall w (f a).run s t [] (Service.screened rest)) :
    Leads everyCall w ((liftM x : Operation α) >>= f).run s t []
      (Service.screened (os ++ rest)) := by
  rw [leads_then, leads_check]
  cases hx with
  | passed a => exact h a
  | refused ho rest' => exact .of_refused ho _

theorem Leads.lifetime_screened {duration : String} {f : Duration → Operation β}
    (h : ∀ ttl, Leads everyCall w (f ttl).run s t [] (Service.screened rest)) :
    Leads everyCall w (readLifetime duration >>= f).run s t []
      (Service.screened (durationObjections duration ++ rest)) := by
  have hjudges := judges_lifetime duration
  rw [leads_then, leads_readLifetime]
  generalize lifetime duration = reading at hjudges ⊢
  generalize durationObjections duration = os at hjudges ⊢
  cases hjudges with
  | passed ttl => exact h ttl
  | refused ho rest' => exact .of_refused ho _
  | broken ho rest' => exact .of_broken ho _ _

variable (sv : Service)

theorem Leads.connect_granted {login : Login} {f : Unit → Operation β}
    (h : ∀ s' t' g', Leads everyCall w (f ()).run s' t' g' granted) :
    Leads everyCall w (sv.connect login d >>= f).run s t g granted :=
  Leads.connect_then sv (w.keeps_true _) trivial
    (fun _ _ _ _ he _ => .error (origin_of_verdict he)) fun s' t' _ => h s' t' _

theorem Leads.bounded_granted {step : String} {c : Call} {f : c.Value → Operation β}
    (h : ∀ v s' t' g', Leads everyCall w (f v).run s' t' g' granted) :
    Leads everyCall w (sv.bounded d step c >>= f).run s t g granted :=
  Leads.bounded_then sv (w.keeps_true c) trivial
    (fun _ _ _ _ he _ => .error (origin_of_verdict he)) fun v s' t' _ _ => h v s' t' _

theorem Leads.visit_granted {login : Login} {step : String} {c : Call}
    {f : c.Value → Operation β} (h : ∀ v s' t' g', Leads everyCall w (f v).run s' t' g' granted) :
    Leads everyCall w (do
      sv.connect login d
      let used ← attempt (sv.bounded d step c)
      liftM release
      let v ← liftM used
      f v : Operation β).run s t g granted := by
  refine Leads.connect_granted sv ?_
  intro s' t' g'
  exact Leads.use_then sv (w.keeps_true c) (w.keeps_true .close) trivial
    (fun _ _ _ _ _ _ he _ => .error (origin_of_verdict he)) fun v s' _ t' _ _ _ => h v s' t' _

/-- The key and the secret are screened before the session is loaded. -/
theorem Leads.load_screened {key secret : String} {f : Login → Operation β}
    (h : ∀ login s' t' g', Leads everyCall w (f login).run s' t' g' granted) :
    Leads everyCall w (sv.loadSession key secret d >>= f).run s t []
      (Service.screened (keyObjections key ++ secretObjections secret)) := by
  have hkey := judges_checkKey key
  have hsecret := judges_checkSecret secret
  rw [leads_then, leads_loadSession]
  generalize checkKey key = x, keyObjections key = os at hkey ⊢
  generalize checkSecret secret = y, secretObjections secret = os' at hsecret ⊢
  cases hkey with
  | refused ho rest => exact .of_refused ho _
  | passed _ =>
  cases hsecret with
  | refused ho rest => exact .of_refused ho _
  | passed _ =>
  refine Leads.ask (by simp) (w.keeps_true _) trivial ?_
  intro s' t' a _
  simp only [onward]
  cases hread : sv.sessionRead a >>= envelopeText with
  | error f => exact (Granted.error (origin_of_stored hread)).screened _
  | ok envelope =>
  simp only
  cases hopened : loginOf _ with
  | error f =>
    exact (Granted.error (ne_inputs_of_answers (origin_of_loginOf hopened))).screened _
  | ok login => exact Leads.screened (h login _ t' _)

theorem testConnection_screened (login : Login) :
    Leads everyCall w (sv.testConnection login).run s t []
      (Service.screened (loginObjections login)) := by
  rw [← List.append_nil (loginObjections login)]
  unfold Service.testConnection
  refine Leads.check_screened (judges_checkLogin login) fun _ => Leads.screened ?_
  rw [leads_deadline_then]
  refine Leads.connect_granted sv ?_
  intro s' t' g'
  rw [leads_then, leads_lift]
  refine Leads.ask_unlimited (w.keeps_true .close) trivial ?_ fun _ _ => Granted.endless
  intro s'' t'' a _
  rcases a with _ | (f | v)
  · simp only [onward, forward, leads_told]
    exact .ok ()
  · simp only [onward, forward, leads_told_then, leads_throw_then]
    exact .error (by simp [ServiceFault.origin])
  · simp only [onward, forward, leads_told]
    exact .ok ()

theorem openSession_screened (login : Login) (secret duration : String) :
    Leads everyCall w (sv.openSession login secret duration).run s t [] (Service.screened
      (loginObjections login ++ secretObjections secret ++ durationObjections duration)) := by
  rw [List.append_assoc, ← List.append_nil (durationObjections duration)]
  unfold Service.openSession
  refine Leads.check_screened (judges_checkLogin login) fun _ => ?_
  refine Leads.check_screened (judges_checkSecret secret) fun _ => ?_
  refine Leads.lifetime_screened fun ttl => Leads.screened ?_
  rw [leads_deadline_then]
  refine Leads.connect_granted sv ?_
  intro s₁ t₁ g₁
  refine Leads.release_then (w.keeps_true .close) trivial ?_
  intro s₂ t₂ _ _
  refine Leads.bounded_granted sv ?_
  intro key s₃ t₃ g₃
  rw [leads_told_then, leads_then, leads_computation]
  cases hsealed : reply (.encrypt (Utf8.octets login.encode) secret) _ with
  | error f => exact .error (ne_inputs_of_answers (origin_of_reply hsealed))
  | ok envelope =>
  simp only [forward]
  rw [leads_told_then, leads_then, leads_attempt, leads_bounded]
  refine Leads.ask (by simp) (w.keeps_true _) trivial ?_
  intro s₄ t₄ a _
  simp only [onward, forward]
  cases hput : sv.verdict "session store write" _ a with
  | error f =>
    rw [leads_told_then, leads_throw_then]
    exact .error (origin_of_verdict hput)
  | ok _ =>
    rw [leads_told_then, leads_ok]
    exact .ok key

theorem listTables_screened (key secret : String) :
    Leads everyCall w (sv.listTables key secret).run s t []
      (Service.screened (keyObjections key ++ secretObjections secret)) := by
  unfold Service.listTables
  rw [leads_deadline_then]
  refine Leads.load_screened sv ?_
  intro login s₁ t₁ g₁
  refine Leads.visit_granted sv ?_
  intro tables s₂ t₂ g₂
  rw [leads_told_then, leads_ok]
  exact .ok _

theorem fetchRows_screened (key secret : String) (q : Selection) :
    Leads everyCall w (sv.fetchRows key secret q).run s t [] (Service.screened
      (selectionObjections q ++ keyObjections key ++ secretObjections secret)) := by
  rw [List.append_assoc]
  unfold Service.fetchRows
  refine Leads.check_screened (judges_checkSelection q) fun _ => ?_
  rw [leads_deadline_then]
  refine Leads.load_screened sv ?_
  intro login s₁ t₁ g₁
  rw [leads_told_then]
  refine Leads.visit_granted sv ?_
  intro rows s₂ t₂ g₂
  rw [leads_told_then, leads_ok]
  exact .ok _

theorem closeSession_screened (key : String) :
    Leads everyCall w (sv.closeSession key).run s t [] (Service.screened (keyObjections key)) := by
  rw [← List.append_nil (keyObjections key)]
  unfold Service.closeSession
  refine Leads.check_screened (judges_checkKey key) fun _ => Leads.screened ?_
  rw [leads_deadline_then]
  refine Leads.bounded_granted sv ?_
  intro _ s₁ t₁ g₁
  rw [leads_told]
  exact .ok ()

end Rules

/-- The inputs of each operation are screened, in every world: the operation fails for an input
exactly where something can be held against one, with just the first of all that can, and breaks off
exactly where that cannot be told; and then no call was made. -/
theorem serve_screened (sv : Service) (r : Request) (w : World σ) (s : σ) (t : Instant) :
    Screened r.objections (r.serve sv w s t).result (r.serve sv w s t).calls := by
  have h : Leads everyCall w (r.operation sv).run s t [] (screened r.objections) := by
    cases r with
    | testConnection login => exact testConnection_screened sv login
    | openSession login secret duration => exact openSession_screened sv login secret duration
    | listTables key secret => exact listTables_screened sv key secret
    | fetchRows key secret q => exact fetchRows_screened sv key secret q
    | closeSession key => exact closeSession_screened sv key
  rw [Ending.calls_eq_picked]
  exact h

/-- A duration is objected to, and yet the operation does not fail with that: where nanoseconds come
to just one second and the seconds are full, the reading breaks off. -/
theorem openSession_unrefused :
    let sv : Service := ⟨⟨30 * nanosPerSecond, by decide⟩⟩
    let r : Request := .openSession sampleLogin "secret" "18446744073709551615s 1000ms"
    r.objections = [.unspelled "18446744073709551615s 1000ms" .carry] ∧
    ¬ ∃ f, (r.serve sv (.favourable slowToClose) () 0).result = .value (.error f) := by
  intro sv r
  have hbroken : (r.serve sv (.favourable slowToClose) () 0).result =
      .broken Duration.Spelled.Fault.carry.message := rfl
  refine ⟨by decide +kernel, ?_⟩
  rintro ⟨f, hf⟩
  cases hbroken.symm.trans hf

end Service
end RowGate
