import RowGate.Proofs.Service.Vault

/-! # Operations follow the table of sessions

Run in the world of the vault, each operation takes a store that mirrors a table to a store that
mirrors the table after it, and what its caller sees of it conforms. So does, by induction, a
run of any length from an empty store on.
-/
namespace RowGate.Service
variable {σ α : Type}

section Steps
variable {table : Table} {v : Vault σ} {t : Instant} {g : List Sight} (sv : Service)
  (o : Outside σ)

/-- Loading gives what the table says, drops at most an expired entry and is not seen. -/
theorem Leads.loadSession_vault {key secret : String} {d : Instant} (hm : Mirrors table v.store t) :
    Leads sights o.vault (sv.loadSession key secret d).run v t g (fun r v' _ g' => ∃ loaded,
      r = .value loaded ∧ g' = g ∧ Mirrors table v'.store t ∧
        (Text.isBlankText key = false → secret ≠ "" → Loaded table t key secret loaded)) := by
  rw [leads_loadSession]
  split
  · next f hcheck =>
    -- A key or a secret was rejected, so there is nothing to say about the session.
    refine ⟨_, rfl, rfl, hm, fun hk hs => ?_⟩
    simp [checkKey, checkSecret, require, hk, hs, bind, Except.bind] at hcheck
  · have hanswer : v.store.answer t (.get key) =
        ((v.store.get t key).1.map some, (v.store.get t key).2) := rfl
    have hget := hm.get key
    rw [leads_ask_ready rfl, Outside.respond_store, hanswer]
    simp only [onward]
    cases hlive : table.live key t with
    | none =>
      rw [hlive] at hget
      have hread : (sv.sessionRead (some (Except.map some (.error (.notFound key)))) >>=
          envelopeText) = .error (.known .sessionExpired) := rfl
      rw [hget.2, hread]
      exact ⟨_, rfl, by simp [sights], hget.1, fun _ _ => ⟨fun _ => rfl, by simp [hlive]⟩⟩
    | some session =>
      rw [hlive] at hget
      obtain ⟨hm', entry, hentry, hvalue⟩ := hget
      obtain ⟨envelope, htext, hlogin⟩ := hentry.opened
      have hread : (sv.sessionRead (some (Except.map some (.ok entry.value))) >>= envelopeText) =
          .ok envelope := htext
      rw [hvalue, hread]
      refine ⟨_, rfl, by simp [sights], hm', fun _ _ => ⟨by simp [hlive], ?_⟩⟩
      intro _ hsession hsecret
      obtain rfl := Option.some.inj (hlive.symm.trans hsession)
      rw [← hsecret, Outside.respond_decrypt, hlogin]

/-- Where a request leads: what it does conforms to the table, and the store mirrors the table
after it. -/
def mirrored (table : Table) (now : Instant) (r : Request) :
    Result (Except ServiceFault r.Value) → Post (Vault σ) Sight :=
  fun result v _ seen => ∃ after, Mirrors after v.store now ∧ Conforms table now r result seen after

theorem mirrored_unchanged (hm : Mirrors table v.store t) {r : Request}
    {result : Result (Except ServiceFault r.Value)} {v' : Vault σ} {seen : List Sight}
    (hv : v'.store = v.store) (hc : Conforms table t r result seen table) :
    ∃ after, Mirrors after v'.store t ∧ Conforms table t r result seen after :=
  ⟨table, hv ▸ hm, hc⟩

theorem testConnection_mirrored (hm : Mirrors table v.store t) (login : Login) :
    Leads sights o.vault (sv.testConnection login).run v t []
      (mirrored table t (.testConnection login)) := by
  unfold Service.testConnection
  refine Leads.check_then (fun _ _ => mirrored_unchanged hm rfl rfl) ?_
  intro _ _
  rw [leads_deadline_then]
  refine Leads.connect_then sv (o.keeps_store v.store (by simp)) rfl
    (fun _ _ _ _ _ hv => mirrored_unchanged hm hv rfl) ?_
  intro v' t' hv
  rw [leads_then, leads_lift]
  refine Leads.ask_unlimited (o.keeps_store v.store (by simp)) hv ?_
    fun v' hv => mirrored_unchanged hm hv rfl
  intro v' t' answer hv
  rcases answer with _ | (f | a)
  · simp only [onward, forward, leads_told]
    exact mirrored_unchanged hm hv rfl
  · simp only [onward, forward, leads_told_then, leads_throw_then]
    exact mirrored_unchanged hm hv rfl
  · simp only [onward, forward, leads_told]
    exact mirrored_unchanged hm hv rfl

theorem closeSession_mirrored (hm : Mirrors table v.store t) (key : String) :
    Leads sights o.vault (sv.closeSession key).run v t []
      (mirrored table t (.closeSession key)) := by
  unfold Service.closeSession
  refine Leads.check_then (fun _ _ => ⟨table, hm, by simp [Conforms]⟩) ?_
  intro _ _
  have hdropped : v.store.answer t (.delete key) = (.ok none, v.store.erase key) := rfl
  rw [leads_deadline_then, leads_then, leads_bounded, leads_ask_ready rfl, Outside.respond_store,
    hdropped]
  simp only [onward, verdict, reply, forward, leads_told]
  exact ⟨table.drop key, hm.drop, by simp [Conforms]⟩

/-- Behind a login that was loaded there is one attempt to connect with it; the store is left
alone, and nothing else is seen. -/
theorem Leads.visit_vault {login : Login} {d : Instant} {step : String} {c : Call}
    {f : c.Value → Operation α} {P : Result (Except ServiceFault α) → Post (Vault σ) Sight}
    (hc : ∀ t a, sights c t a = none) (hs : ∀ r, c ≠ .store r)
    (hok : ∀ a v' t', v'.store = v.store →
      Leads sights o.vault (f a).run v' t' [.tried login] P)
    (hf : ∀ e v' t', v'.store = v.store → P (.value (.error e)) v' t' [.tried login]) :
    Leads sights o.vault (do
      sv.connect login d
      let used ← attempt (sv.bounded d step c)
      liftM release
      let a ← liftM used
      f a : Operation α).run v t [] P := by
  exact Leads.visit_then sv (o.keeps_store v.store (by simp)) (o.keeps_store v.store hs)
    (o.keeps_store v.store (by simp)) rfl (fun _ _ => rfl) hc (fun _ _ => rfl) hf hok

theorem Loaded.served_failure {key secret : String} {f : ServiceFault}
    (h : Loaded table t key secret (.error f)) :
    Served table t key secret (.value (.error f) : Result (Except ServiceFault α)) [] where
  expired hlive := by
    obtain rfl := Except.error.inj (h.expired hlive)
    exact ⟨rfl, rfl⟩
  tried session hlive hsecret := by cases h.kept session hlive hsecret

/-- A session whose login was loaded and tried is served, whatever came of it. -/
theorem Loaded.served {key secret : String} {login : Login}
    (h : Loaded table t key secret (.ok login)) (result : Result (Except ServiceFault α)) :
    Served table t key secret result [.tried login] where
  expired hlive := by cases h.expired hlive
  tried session hlive hsecret := by rw [Except.ok.inj (h.kept session hlive hsecret)]

theorem listTables_mirrored (hm : Mirrors table v.store t) (key secret : String) :
    Leads sights o.vault (sv.listTables key secret).run v t []
      (mirrored table t (.listTables key secret)) := by
  unfold Service.listTables
  rw [leads_deadline_then, leads_then]
  refine (Leads.loadSession_vault sv o hm).mono ?_
  rintro _ v' t' _ ⟨loaded, rfl, rfl, hm', hloaded⟩
  cases loaded with
  | error f => exact mirrored_unchanged hm' rfl ⟨fun hk hs => (hloaded hk hs).served_failure, rfl⟩
  | ok login =>
  have unchanged : ∀ (result : Result (Except ServiceFault (List String))) (v'' : Vault σ),
      v''.store = v'.store → ∃ after, Mirrors after v''.store t ∧
        Conforms table t (.listTables key secret) result [.tried login] after :=
    fun result v'' hv =>
      mirrored_unchanged hm' hv ⟨fun hk hs => (hloaded hk hs).served result, rfl⟩
  rw [forward]
  refine Leads.visit_vault sv o (fun _ _ => rfl) (by simp) ?_ fun e v'' _ hv => unchanged _ v'' hv
  intro tables v'' t'' hv
  rw [leads_told_then, leads_ok]
  exact unchanged _ v'' hv

theorem fetchRows_mirrored (hm : Mirrors table v.store t) (key secret : String) (q : Selection) :
    Leads sights o.vault (sv.fetchRows key secret q).run v t []
      (mirrored table t (.fetchRows key secret q)) := by
  unfold Service.fetchRows
  refine Leads.check_then ?_ ?_
  · intro f hq
    refine mirrored_unchanged hm rfl ⟨?_, rfl⟩
    intro _ _ hvalid
    rw [checkSelection, hvalid] at hq
    cases hq
  intro _ _
  rw [leads_deadline_then, leads_then]
  refine (Leads.loadSession_vault sv o hm).mono ?_
  rintro _ v' t' _ ⟨loaded, rfl, rfl, hm', hloaded⟩
  cases loaded with
  | error f =>
    exact mirrored_unchanged hm' rfl ⟨fun hk hs _ => (hloaded hk hs).served_failure, rfl⟩
  | ok login =>
  have unchanged : ∀ (result : Result (Except ServiceFault String)) (v'' : Vault σ),
      v''.store = v'.store → ∃ after, Mirrors after v''.store t ∧
        Conforms table t (.fetchRows key secret q) result [.tried login] after :=
    fun result v'' hv =>
      mirrored_unchanged hm' hv ⟨fun hk hs _ => (hloaded hk hs).served result, rfl⟩
  rw [forward, leads_told_then]
  refine Leads.visit_vault sv o (fun _ _ => rfl) (by simp) ?_ fun e v'' _ hv => unchanged _ v'' hv
  intro rows v'' t'' hv
  rw [leads_told_then, leads_ok]
  exact unchanged _ v'' hv

/-- An opening that fails leaves the table as it is. -/
theorem openSession_failed (hm : Mirrors table v.store t) {login : Login} {secret duration : String}
    {result : Result (Except ServiceFault String)} {v' : Vault σ} {seen : List Sight}
    (hv : v'.store = v.store) (h : ∀ key, result ≠ .value (.ok key)) :
    ∃ after, Mirrors after v'.store t ∧
      Conforms table t (.openSession login secret duration) result seen after :=
  mirrored_unchanged hm hv ⟨fun key hkey => absurd hkey (h key), fun _ => rfl⟩

theorem lifetime_ok_not_zero {duration : String} {ttl : Duration}
    (h : lifetime duration = some (.ok ttl)) : ttl.isZero = false := by
  unfold lifetime at h
  split at h
  · split at h <;> cases h
  · split at h
    · cases h
    · split at h
      · cases h
      · next hz =>
        cases h
        simpa using hz

theorem openSession_mirrored (hm : Mirrors table v.store t) (login : Login)
    (secret duration : String) :
    Leads sights o.vault (sv.openSession login secret duration).run v t []
      (mirrored table t (.openSession login secret duration)) := by
  unfold Service.openSession
  refine Leads.check_then (fun _ _ => openSession_failed hm rfl (by simp)) ?_
  intro _ _
  refine Leads.check_then (fun _ _ => openSession_failed hm rfl (by simp)) ?_
  intro _ _
  refine Leads.readLifetime_then (fun _ => openSession_failed hm rfl (by simp))
    (fun _ => openSession_failed hm rfl (by simp)) ?_
  intro ttl hlifetime
  rw [leads_deadline_then]
  refine Leads.connect_then sv (o.keeps_store v.store (by simp)) rfl
    (fun _ _ _ _ _ hv => openSession_failed hm hv (by simp)) ?_
  intro v₁ t₁ hv₁
  refine Leads.release_then (o.keeps_store v.store (by simp)) hv₁ ?_
  intro v₂ t₂ _ hv₂
  refine Leads.bounded_then sv (o.keeps_store v.store (by simp)) hv₂
    (fun _ _ _ _ _ hv => openSession_failed hm hv (by simp)) ?_
  intro key v₃ t₃ _ hv₃
  rw [leads_told_then, leads_then, leads_computation, Outside.respond_encrypt]
  cases hw : Envelope.wrap (Utf8.octets login.encode) secret (o.draw v₃.outside).1.1 with
  | error f => exact openSession_failed hm hv₃ (by simp)
  | ok envelope =>
  -- Until here the store was left alone, so each failure left the table as it was.
  simp only [reply, forward]
  rw [leads_told_then, leads_then, leads_attempt, leads_bounded, leads_ask_ready rfl,
    Outside.respond_store]
  have hm₃ : Mirrors table v₃.store t := hv₃ ▸ hm
  obtain ⟨f, hput⟩ | ⟨store, hput, hm'⟩ := hm₃.put (lifetime_ok_not_zero hlifetime) hw key t₃
  · simp only [MemoryStore.answer, hput, Except.map, onward, verdict, reply, forward,
      leads_told_then, leads_throw_then]
    exact openSession_failed hm hv₃ (by simp)
  · simp only [MemoryStore.answer, hput, Except.map, onward, verdict, reply, forward,
      leads_told_then, leads_ok]
    refine ⟨_, hm', ?_, fun h => absurd rfl (h key)⟩
    rintro _ ⟨rfl⟩
    exact ⟨ttl, t₃, hlifetime, rfl, rfl⟩

/-- Every request takes a store that mirrors a table to a store that mirrors the table after it. -/
theorem serve_mirrored (hm : Mirrors table v.store t) (r : Request) :
    let e := r.serve sv o.vault v t
    ∃ after, Conforms table t r e.result (sights.picked e.trace) after ∧
      Mirrors after e.state.store e.time := by
  have h : Leads sights o.vault (r.operation sv).run v t [] (mirrored table t r) := by
    cases r with
    | testConnection login => exact testConnection_mirrored sv o hm login
    | openSession login secret duration => exact openSession_mirrored sv o hm login secret duration
    | listTables key secret => exact listTables_mirrored sv o hm key secret
    | fetchRows key secret q => exact fetchRows_mirrored sv o hm key secret q
    | closeSession key => exact closeSession_mirrored sv o hm key
  obtain ⟨after, hafter, hconforms⟩ := h
  exact ⟨after, hconforms, hafter.mono (Program.le_time ..)⟩

/-- By induction on the visits: what one request leaves mirrored, the next one finds so. -/
theorem follows_of_mirrors {visits : List (Nat × Request)} (hm : Mirrors table v.store t) :
    Follows sv o.vault table v t visits := by
  induction visits generalizing table v t with
  | nil => trivial
  | cons visit rest ih =>
    obtain ⟨pause, r⟩ := visit
    obtain ⟨after, hconforms, hafter⟩ :=
      serve_mirrored sv o (hm.mono (Nat.le_add_right t pause)) r
    exact ⟨after, hconforms, ih hafter⟩

end Steps

/-- From an empty store on, any requests with any pauses between them follow the table of
sessions, whatever the gateway and the issuer do and whichever nonces are drawn. -/
theorem vault_follows (sv : Service) (o : Outside σ) (s : σ) (t : Instant)
    (visits : List (Nat × Request)) :
    Follows sv o.vault .empty ⟨.empty, s⟩ t visits :=
  follows_of_mirrors sv o (Mirrors.empty t)

end RowGate.Service
