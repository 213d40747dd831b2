import RowGate.Proofs.Service.Course

/-! # What operations ask of the store

An operation calls the store once at most, and everything else that it does leaves the store aside.
A visit to a session reads it before anything else and has expired if the session is not found; a
session is closed by one delete. This holds however the calls are answered, and so in the midst of
any other operations.
-/
namespace RowGate.Service
variable {α β : Type}

structure StoreCall where
  request : StoreRequest
  time : Instant
  answer : Option StoreAnswer

def storeCalls : Pick StoreCall
  | .store r, t, a => some ⟨r, t, a⟩
  | _, _, _ => none

/-- A visit to the session of a key, with arguments that pass the checks. -/
inductive Request.Visits (key : String) : Request → Prop where
  | tables {secret : String} (hk : Text.isBlankText key = false) (hs : secret ≠ "") :
      Visits key (.listTables key secret)
  | rows {secret : String} {q : Selection} (hk : Text.isBlankText key = false) (hs : secret ≠ "")
      (hq : q.missing = none) : Visits key (.fetchRows key secret q)

structure Request.Uses (r : Request) (result : Result (Except ServiceFault r.Value))
    (calls : List StoreCall) : Prop where
  once : calls.length ≤ 1
  read : ∀ key, r.Visits key → ∃ t a, calls = [⟨.get key, t, a⟩] ∧
    ((∃ k, a = some (.error (.notFound k))) → result = .value (.error (.known .sessionExpired)))
  dropped : ∀ key, r = .closeSession key → (∃ v, result = .value (.ok v)) →
    ∃ t a, calls = [⟨.delete key, t, a⟩]

def Program.Aside (p : Program α) : Prop :=
  ∀ calls, p.Always storeCalls (fun _ calls' => calls' = calls) calls

section Aside
variable {x : Operation α} {f : α → Operation β}
  {P : Result (Except ServiceFault β) → List StoreCall → Prop} {calls : List StoreCall}

theorem always_then : (x >>= f).run.Always storeCalls P calls ↔ x.run.Always storeCalls
    (forward (fun a calls => (f a).run.Always storeCalls P calls) P) calls := by
  rw [ExceptT.run_bind, always_bind]
  refine iff_of_eq (congrArg (fun Q => x.run.Always storeCalls Q calls) ?_)
  funext r
  cases r with
  | value v =>
    cases v with
    | ok a => rfl
    | error e => rfl
  | broken why => rfl
  | endless => rfl

theorem Program.Aside.bind {p : Program α} {f : α → Program β} (hp : p.Aside)
    (hf : ∀ a, (f a).Aside) : (p >>= f).Aside := by
  intro calls
  refine always_bind.mpr ((hp calls).mono ?_)
  intro r calls' h
  rw [h]
  cases r with
  | value a => exact hf a calls
  | broken why => rfl
  | endless => rfl

theorem Program.Aside.then (hx : x.run.Aside) (hf : ∀ a, (f a).run.Aside) :
    (x >>= f).run.Aside := by
  refine Program.Aside.bind hx ?_
  intro v
  cases v with
  | ok a => exact hf a
  | error e => exact fun _ => rfl

/-- Behind a part that leaves the store aside an operation goes on, unless it ends with it. -/
theorem Program.Aside.then_always (hx : x.run.Aside) (hend : ∀ r, P r calls)
    (hf : ∀ a, (f a).run.Always storeCalls P calls) : (x >>= f).run.Always storeCalls P calls := by
  refine always_then.mpr ((hx calls).mono ?_)
  intro r calls' h
  rw [h]
  -- Only a value takes the operation on; with anything else it ends here.
  cases r with
  | value v =>
    cases v with
    | ok a => exact hf a
    | error e => exact hend _
  | broken why => exact hend _
  | endless => exact hend _

theorem Program.Aside.always {p : Program α} {P : Result α → List StoreCall → Prop}
    (hp : p.Aside) (h : ∀ r, P r calls) : p.Always storeCalls P calls := by
  refine (hp calls).mono ?_
  intro r calls' hcalls
  rw [hcalls]
  exact h r

variable (sv : Service) {c : Call} {d : Instant} {step : String}

theorem aside_check (v : Except ServiceFault α) : (liftM v : Operation α).run.Aside :=
  fun _ => rfl

theorem aside_told {level : Log.Level} {message : String} {fields : List Log.Field} :
    (liftM (tell level message fields) : Operation Unit).run.Aside := fun _ => rfl

theorem aside_deadline : (liftM sv.deadline : Operation Instant).run.Aside := fun _ _ => rfl

theorem aside_ask {limit : Limit} (hc : ∀ t a, storeCalls c t a = none) :
    (liftM (Program.ask c limit) : Operation (Option c.Answer)).run.Aside := by
  intro calls
  constructor
  · intro t a
    rw [hc, Option.toList_none, List.append_nil]
    rfl
  · intro _ t
    rw [hc, Option.toList_none, List.append_nil]

theorem aside_bounded (hc : ∀ t a, storeCalls c t a = none) : (sv.bounded d step c).run.Aside := by
  intro calls
  refine ⟨?_, fun h => by cases h⟩
  intro t a
  rw [hc, Option.toList_none, List.append_nil]
  rcases a with _ | (e | v)
  · rfl
  · rfl
  · rfl

theorem aside_attempt (hx : x.run.Aside) : (attempt x).run.Aside :=
  Program.Aside.bind hx fun _ _ => rfl

theorem aside_connect {login : Login} : (sv.connect login d).run.Aside := by
  refine Program.Aside.bind (aside_bounded sv fun _ _ => rfl) ?_
  intro v
  cases v with
  | ok _ => exact fun _ => rfl
  | error f => cases f <;> exact fun _ => rfl

theorem aside_release : (liftM release : Operation Unit).run.Aside := by
  intro calls
  refine ⟨?_, fun h => by cases h⟩
  intro t a
  rcases a with _ | (e | v)
  · exact List.append_nil calls
  · exact List.append_nil calls
  · exact List.append_nil calls

theorem aside_computed (hc : ∀ t a, storeCalls c t a = none) : (computed c).run.Aside := by
  intro calls t a
  rw [hc, Option.toList_none, List.append_nil]
  cases a with
  | error e => rfl
  | ok v => rfl

theorem aside_readLifetime (duration : String) : (readLifetime duration).run.Aside := by
  unfold readLifetime
  cases lifetime duration with
  | none => exact fun _ => rfl
  | some reading => exact fun _ => rfl

theorem aside_visit {login : Login} {f : c.Value → Operation α}
    (hc : ∀ t a, storeCalls c t a = none) (hf : ∀ v, (f v).run.Aside) : (do
      sv.connect login d
      let used ← attempt (sv.bounded d step c)
      liftM release
      let v ← liftM used
      f v : Operation α).run.Aside :=
  (aside_connect sv).then fun _ => (aside_attempt (aside_bounded sv hc)).then fun _ =>
    aside_release.then fun _ => (aside_check _).then hf

theorem aside_openEnvelope {key envelope secret : String} :
    (openEnvelope key envelope secret).run.Aside := by
  intro calls t a
  cases a with
  | error e => exact List.append_nil calls
  | ok payload => exact List.append_nil calls

end Aside

section Always
variable {P : Result (Except ServiceFault α) → List StoreCall → Prop} {calls : List StoreCall}
  (sv : Service) {d : Instant}

theorem always_check {v : Except ServiceFault α} :
    (liftM v : Operation α).run.Always storeCalls P calls ↔ P (.value v) calls := Iff.rfl

theorem always_deadline_then {f : Instant → Operation α} :
    ((liftM sv.deadline : Operation Instant) >>= f).run.Always storeCalls P calls ↔
      ∀ t, (f (deadlineAfter t sv.timeout)).run.Always storeCalls P calls := always_then

theorem always_bounded {step : String} {c : Call}
    {P : Result (Except ServiceFault c.Value) → List StoreCall → Prop}
    (h : ∀ t a, P (.value (sv.verdict step c a)) (calls ++ (storeCalls c t a).toList)) :
    (sv.bounded d step c).run.Always storeCalls P calls := by
  refine ⟨?_, fun h => by cases h⟩
  intro t a
  have ha := h t a
  rcases a with _ | (e | v)
  · exact ha
  · exact ha
  · exact ha

theorem always_attempt {x : Operation α}
    {P : Result (Except ServiceFault (Except ServiceFault α)) → List StoreCall → Prop}
    (h : x.run.Always storeCalls (onward (fun v => P (.value (.ok v))) P) calls) :
    (attempt x).run.Always storeCalls P calls := always_bind.mpr h

theorem always_readSession {key : String}
    {P : Result (Except ServiceFault Octets) → List StoreCall → Prop}
    (h : ∀ t a, P (.value (sv.sessionRead a)) (calls ++ [⟨.get key, t, a⟩])) :
    (sv.readSession key d).run.Always storeCalls P calls := by
  refine always_bind.mpr (always_bounded sv ?_)
  intro t a
  have ha := h t a
  rcases a with _ | (e | stored)
  · exact ha
  · cases e <;> exact ha
  · exact ha

/-- What comes of a visit is settled by the read if there is no session, and if there is one, the
read was the only call of the store. -/
theorem Program.Always.load_then {key secret : String} {f : Login → Operation α}
    (hcheck : ∀ e, (checkKey key >>= fun _ => checkSecret secret) = .error e →
      P (.value (.error e)) [])
    (hgone : ∀ t k, P (.value (.error (.known .sessionExpired)))
      [⟨.get key, t, some (.error (.notFound k))⟩])
    (hread : ∀ t a r, (∀ k, a ≠ some (.error (.notFound k))) → P r [⟨.get key, t, a⟩])
    (hf : ∀ login, (f login).run.Aside) :
    (sv.loadSession key secret d >>= f).run.Always storeCalls P [] := by
  rw [always_then]
  unfold Service.loadSession
  rw [always_then, always_check]
  cases hkey : checkKey key with
  | error e => exact hcheck e (by rw [hkey]; rfl)
  | ok _ =>
  rw [forward, always_then, always_check]
  cases hsecret : checkSecret secret with
  | error e => exact hcheck e (by rw [hkey, hsecret]; rfl)
  | ok _ =>
  rw [forward, always_then]
  refine always_readSession sv ?_
  intro t a
  rcases a with _ | (e | stored)
  · exact hread t none _ (by simp)
  · cases e with
    | notFound k => exact hgone t k
    | service reason => exact hread t _ _ (by simp)
    | write reason => exact hread t _ _ (by simp)
  -- Behind a session that was read the store is left aside, whatever comes of the rest.
  refine Program.Aside.always ?_ ?_
  · cases Utf8.text (stored.getD []) with
    | error f => exact fun _ => rfl
    | ok envelope =>
      refine aside_openEnvelope.then ?_
      intro payload
      cases Login.decode payload with
      | error f => exact fun _ => rfl
      | ok login => exact fun _ => rfl
  · intro r
    have hread := fun r => hread t (some (.ok stored)) r (by simp)
    cases r with
    | value v =>
      cases v with
      | ok login => exact (hf login).always hread
      | error e => exact hread _
    | broken why => exact hread _
    | endless => exact hread _

end Always

section Uses
variable (sv : Service)

/-- Of what is neither a visit nor a close, no more is said than that it calls once at most. -/
theorem Request.Uses.of_length {r : Request} {result : Result (Except ServiceFault r.Value)}
    {calls : List StoreCall} (hv : ∀ key, ¬ r.Visits key) (hc : ∀ key, r ≠ .closeSession key)
    (h : calls.length ≤ 1) : r.Uses result calls :=
  ⟨h, fun key hkey => absurd hkey (hv key), fun key hkey => absurd hkey (hc key)⟩

theorem Request.Visits.not_rejected {key secret : String} {e : ServiceFault}
    (hk : Text.isBlankText key = false) (hs : secret ≠ "") :
    (checkKey key >>= fun _ => checkSecret secret) ≠ .error e := by
  simp [checkKey, checkSecret, require, hk, hs, bind, Except.bind]

theorem testConnection_uses (login : Login) :
    (sv.testConnection login).run.Always storeCalls (Request.testConnection login).Uses [] := by
  refine Program.Aside.always ?_ fun _ => .of_length (fun _ h => nomatch h) (by simp) (by simp)
  unfold Service.testConnection
  refine (aside_check _).then fun _ => (aside_deadline sv).then fun _ =>
    (aside_connect sv).then fun _ => (aside_ask fun _ _ => rfl).then ?_
  intro answer
  rcases answer with _ | (f | _)
  · exact aside_told
  · exact aside_told.then fun _ _ => rfl
  · exact aside_told

theorem openSession_uses (login : Login) (secret duration : String) :
    (sv.openSession login secret duration).run.Always storeCalls
      (Request.openSession login secret duration).Uses [] := by
  have few : ∀ calls : List StoreCall, calls.length ≤ 1 → ∀ result,
      (Request.openSession login secret duration).Uses result calls :=
    fun _ h _ => .of_length (fun _ h => nomatch h) (by simp) h
  have none := few [] (Nat.zero_le 1)
  unfold Service.openSession
  refine (aside_check _).then_always none fun _ => (aside_check _).then_always none fun _ =>
    (aside_readLifetime _).then_always none fun ttl => (aside_deadline sv).then_always none fun _ =>
    (aside_connect sv).then_always none fun _ => aside_release.then_always none fun _ =>
    (aside_bounded sv fun _ _ => rfl).then_always none fun key =>
    aside_told.then_always none fun _ =>
    (aside_computed fun _ _ => rfl).then_always none fun envelope =>
    aside_told.then_always none fun _ => ?_
  -- The write is the one call of the store.
  refine always_then.mpr (always_attempt (always_bounded sv ?_))
  intro t a
  have one := few [⟨.put key (Utf8.octets envelope) ttl, t, a⟩] (Nat.le_refl 1)
  simp only [onward, forward]
  cases sv.verdict _ _ a with
  | error f =>
    refine Program.Aside.always ?_ one
    exact aside_told.then fun _ _ => rfl
  | ok _ =>
    refine Program.Aside.always ?_ one
    exact aside_told.then fun _ _ => rfl

/-- What begins by loading a session and leaves the store aside after that. -/
theorem load_uses {r : Request} {key secret : String} {d : Instant} {f : Login → Operation r.Value}
    (hv : ∀ k, r.Visits k → k = key ∧ Text.isBlankText k = false ∧ secret ≠ "")
    (hc : ∀ k, r ≠ .closeSession k) (hf : ∀ login, (f login).run.Aside) :
    (sv.loadSession key secret d >>= f).run.Always storeCalls r.Uses [] := by
  refine Program.Always.load_then sv ?_ ?_ ?_ hf
  · intro e he
    refine ⟨Nat.zero_le 1, fun k hk => ?_, fun k hk => absurd hk (hc k)⟩
    obtain ⟨rfl, hkey, hsecret⟩ := hv k hk
    exact absurd he (Request.Visits.not_rejected hkey hsecret)
  · intro t missing
    refine ⟨Nat.le_refl 1, fun k hk => ?_, fun k hk => absurd hk (hc k)⟩
    obtain ⟨rfl, -, -⟩ := hv k hk
    exact ⟨t, _, rfl, fun _ => rfl⟩
  · intro t a result ha
    refine ⟨Nat.le_refl 1, fun k hk => ?_, fun k hk => absurd hk (hc k)⟩
    obtain ⟨rfl, -, -⟩ := hv k hk
    exact ⟨t, a, rfl, fun ⟨missing, hmissing⟩ => absurd hmissing (ha missing)⟩

theorem listTables_uses (key secret : String) :
    (sv.listTables key secret).run.Always storeCalls (Request.listTables key secret).Uses [] := by
  unfold Service.listTables
  rw [always_deadline_then]
  intro t
  refine load_uses sv ?_ (by simp) fun login => ?_
  · intro k hk
    cases hk with
    | tables hkey hsecret => exact ⟨rfl, hkey, hsecret⟩
  · exact aside_visit sv (fun _ _ => rfl) fun _ => aside_told.then fun _ _ => rfl

theorem fetchRows_uses (key secret : String) (q : Selection) :
    (sv.fetchRows key secret q).run.Always storeCalls (Request.fetchRows key secret q).Uses [] := by
  unfold Service.fetchRows
  rw [always_then, always_check]
  cases hcheck : checkSelection q with
  | error e =>
    refine ⟨Nat.zero_le 1, fun k hk => ?_, fun k hk => nomatch hk⟩
    cases hk with
    | rows _ _ hq =>
      rw [checkSelection, hq] at hcheck
      cases hcheck
  | ok _ =>
  rw [forward, always_deadline_then]
  intro t
  refine load_uses sv ?_ (by simp) fun login => ?_
  · intro k hk
    cases hk with
    | rows hkey hsecret _ => exact ⟨rfl, hkey, hsecret⟩
  · refine aside_told.then fun _ => ?_
    exact aside_visit sv (fun _ _ => rfl) fun _ => aside_told.then fun _ _ => rfl

theorem closeSession_uses (key : String) :
    (sv.closeSession key).run.Always storeCalls (Request.closeSession key).Uses [] := by
  unfold Service.closeSession
  rw [always_then, always_check]
  cases checkKey key with
  | error e =>
    refine ⟨Nat.zero_le 1, fun k hk => (nomatch hk), ?_⟩
    rintro k hk ⟨v, hv⟩
    cases hv
  | ok _ =>
  rw [forward, always_deadline_then]
  intro t
  refine always_then.mpr (always_bounded sv ?_)
  intro t a
  have dropped : ∀ result, (Request.closeSession key).Uses result [⟨.delete key, t, a⟩] := by
    intro result
    refine ⟨Nat.le_refl 1, fun k hk => (nomatch hk), ?_⟩
    rintro _ ⟨⟩ _
    exact ⟨t, a, rfl⟩
  cases sv.verdict _ _ a with
  | error e => exact dropped _
  | ok _ => exact dropped _

/-- However the calls of a request are answered, it has used the store so by its end. -/
theorem Request.always_uses (r : Request) :
    (r.operation sv).run.Always storeCalls r.Uses [] := by
  cases r with
  | testConnection login => exact testConnection_uses sv login
  | openSession login secret duration => exact openSession_uses sv login secret duration
  | listTables key secret => exact listTables_uses sv key secret
  | fetchRows key secret q => exact fetchRows_uses sv key secret q
  | closeSession key => exact closeSession_uses sv key

end Uses
end RowGate.Service
