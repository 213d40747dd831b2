import RowGate.Proofs.Service.Vault

/-! # No session is half made

Opening a session asks the store for one thing at the most, a put, and asks nobody for anything
behind it. The put comes of a login that was tried, with a connection that was closed again, and the
operation succeeds just where the put does.
-/
namespace RowGate.Service
variable {σ : Type}

/-- A call, and what was answered if it was waited for. -/
structure Exchange where
  call : Call
  answer : Option call.Answer

def exchanges : Pick Exchange := fun c _ answer => some ⟨c, answer⟩

def Exchange.asksStore (x : Exchange) : Bool :=
  match x.call with
  | .store _ => true
  | _ => false

def prelude (login : Login) (secret key envelope : String) (closing : Option (Call.Answer .close)) :
    List Exchange :=
  [⟨.connect login, some (.ok ())⟩, ⟨.close, closing⟩, ⟨.issueKey, some (.ok key)⟩,
    ⟨.encrypt (Utf8.octets login.encode) secret, some (.ok envelope)⟩]

def PutFailed (sv : Service) (f : ServiceFault) : Option StoreAnswer → Prop
  | some (.ok _) => False
  | some (.error e) => f = .store e
  | none => f = .timeout "session store write" sv.timeout

structure Atomic (sv : Service) (login : Login) (secret duration : String) (seen : List Exchange)
    (result : Result (Except ServiceFault String)) : Prop where
  /-- What a store is asked for is a put, behind all that leads up to it and before nothing. -/
  stored : ∀ before x after, seen = before ++ x :: after → x.asksStore = true →
    after = [] ∧ ∃ key envelope ttl closing,
      x.call = .store (.put key (Utf8.octets envelope) ttl) ∧
      lifetime duration = some (.ok ttl) ∧ before = prelude login secret key envelope closing
  opened : ∀ key, result = .value (.ok key) ↔
    ∃ before value ttl v, seen = before ++ [⟨.store (.put key value ttl), some (.ok v)⟩]
  /-- A failure is that of the put, or no store was asked for anything. -/
  failed : ∀ f, result = .value (.error f) → (∀ x ∈ seen, x.asksStore = false) ∨
    ∃ before key value ttl answer, seen = before ++ [⟨.store (.put key value ttl), answer⟩] ∧
      PutFailed sv f answer
  broken : ∀ why, result = .broken why → seen = []
  ends : result ≠ .endless

theorem putFailed_of_verdict {sv : Service} {r : StoreRequest} {a : Option StoreAnswer}
    {f : ServiceFault} (h : sv.verdict "session store write" (.store r) a = .error f) :
    PutFailed sv f a := by
  rcases a with _ | (e | v)
  · exact (Except.error.inj h).symm
  · exact (Except.error.inj h).symm
  · cases h

/-- Where opening ends. What the world keeps true through all calls but those of the store, `I`, is
true at the end, or it was true when the put was made. -/
inductive Opening (sv : Service) (w : World σ) (I : σ → Prop) (login : Login)
    (secret duration : String) : Result (Except ServiceFault String) → σ → List Exchange → Prop
  | broken {why : String} {s : σ} (hI : I s) :
      Opening sv w I login secret duration (.broken why) s []
  | unstored {f : ServiceFault} {s : σ} {seen : List Exchange} (hI : I s)
      (h : ∀ x ∈ seen, x.asksStore = false) :
      Opening sv w I login secret duration (.value (.error f)) s seen
  | stored {key envelope : String} {ttl : Duration} {closing : Option (Call.Answer .close)}
      {s s' : σ} {t : Instant} {answer : Option StoreAnswer} (hI : I s)
      (httl : lifetime duration = some (.ok ttl))
      (h : (w.respond s t (.store (.put key (Utf8.octets envelope) ttl))).Gives answer s') :
      Opening sv w I login secret duration
        (.value ((sv.verdict "session store write" (.store (.put key (Utf8.octets envelope) ttl))
          answer).map fun _ => key)) s'
        (prelude login secret key envelope closing ++
          [⟨.store (.put key (Utf8.octets envelope) ttl), answer⟩])

section Opening
variable {sv : Service} {w : World σ} {I : σ → Prop} {login : Login} {secret duration : String}

theorem asksStore_of_mem_prelude {key envelope : String} {closing : Option (Call.Answer .close)}
    {x : Exchange} (h : x ∈ prelude login secret key envelope closing) : x.asksStore = false := by
  simp only [prelude, List.mem_cons, List.not_mem_nil, or_false] at h
  obtain rfl | rfl | rfl | rfl := h
  · rfl
  · rfl
  · rfl
  · rfl

theorem openSession_opening (hk : ∀ c, (∀ r, c ≠ .store r) → w.Keeps I c) {s : σ} (hs : I s)
    (t : Instant) : Leads exchanges w (sv.openSession login secret duration).run s t []
      (fun r s' _ seen => Opening sv w I login secret duration r s' seen) := by
  unfold Service.openSession
  refine Leads.check_then (fun _ _ => .unstored hs (by simp)) ?_
  intro _ _
  refine Leads.check_then (fun _ _ => .unstored hs (by simp)) ?_
  intro _ _
  refine Leads.readLifetime_then (fun _ => .broken hs) (fun _ => .unstored hs (by simp)) ?_
  intro ttl httl
  rw [leads_deadline_then]
  refine Leads.connect_then sv (hk _ (by simp)) hs ?_ ?_
  · intro f s' _ a _ hs'
    exact .unstored hs' (by simp [exchanges, Exchange.asksStore])
  intro s' t' hs'
  refine Leads.release_then (hk _ (by simp)) hs' ?_
  intro s' t' closing hs'
  rw [leads_then, leads_bounded]
  refine Leads.ask (by simp) (hk _ (by simp)) hs' ?_
  intro s' t' issued hs'
  simp only [onward]
  cases hkey : sv.verdict _ _ issued with
  | error f => exact .unstored hs' (by simp [exchanges, Exchange.asksStore])
  | ok key =>
  obtain rfl := verdict_eq_ok_iff.mp hkey
  simp only [forward]
  rw [leads_told_then, leads_then, leads_computation]
  have hsealed := (hk (.encrypt (Utf8.octets login.encode) secret) (by simp) s' t' hs').1
  cases (w.respond s' t' (.encrypt (Utf8.octets login.encode) secret)).answer with
  | error f => exact .unstored hsealed (by simp [exchanges, Exchange.asksStore])
  | ok envelope =>
  simp only [reply, forward]
  rw [leads_told_then, leads_then, leads_attempt, leads_bounded]
  refine Leads.ask_gives (by simp) ?_
  intro answer s'' u hgives
  have hend : Opening sv w I login secret duration (.value ((sv.verdict "session store write"
      (.store (.put key (Utf8.octets envelope) ttl)) answer).map fun _ => key)) s''
      (prelude login secret key envelope closing ++ [⟨_, answer⟩]) := .stored hsealed httl hgives
  -- Behind the put its outcome is told and returned.
  simp only [onward, forward]
  cases hput : sv.verdict _ _ answer with
  | error f =>
    rw [leads_told_then, leads_throw_then]
    rwa [hput] at hend
  | ok v =>
    rw [leads_told_then, leads_ok]
    rwa [hput] at hend

theorem eq_of_split {before after seen : List Exchange} {x y : Exchange}
    (hseen : ∀ z ∈ seen, z.asksStore = false) (h : seen ++ [y] = before ++ x :: after)
    (hx : x.asksStore = true) : before = seen ∧ x = y ∧ after = [] := by
  obtain ⟨rest, rfl, hrest⟩ | ⟨rest, rfl, hrest⟩ := List.append_eq_append_iff.mp h
  · simp only [List.singleton_eq_append_iff, List.cons.injEq, reduceCtorEq, and_false,
      or_false] at hrest
    obtain ⟨rfl, rfl, rfl⟩ := hrest
    exact ⟨by simp, rfl, rfl⟩
  · cases rest with
    | nil =>
      obtain ⟨rfl, rfl⟩ : x = y ∧ after = [] := by simpa using hrest
      exact ⟨by simp, rfl, rfl⟩
    | cons z rest =>
      obtain ⟨rfl, -⟩ : x = z ∧ _ := by simpa using hrest
      rw [hseen x (by simp)] at hx
      cases hx

theorem Opening.atomic {result : Result (Except ServiceFault String)} {s : σ} {seen : List Exchange}
    (h : Opening sv w I login secret duration result s seen) :
    Atomic sv login secret duration seen result := by
  cases h with
  | broken hI =>
    refine ⟨?_, ?_, ?_, fun _ _ => rfl, by simp⟩
    · intro before x after h
      simp at h
    · simp
    · simp
  | unstored hI hseen =>
    refine ⟨?_, ?_, fun _ _ => .inl hseen, by simp, by simp⟩
    · rintro before x after rfl hx
      rw [hseen x (by simp)] at hx
      cases hx
    · intro key
      constructor
      · intro h
        cases h
      · rintro ⟨before, value, ttl, v, rfl⟩
        cases hseen ⟨.store (.put key value ttl), some (.ok v)⟩ (by simp)
  | @stored key envelope ttl closing _ _ _ answer hI httl hgives =>
    refine ⟨?_, ?_, ?_, by simp, by simp⟩
    · intro before x after hsplit hx
      obtain ⟨rfl, rfl, rfl⟩ := eq_of_split (fun _ => asksStore_of_mem_prelude) hsplit hx
      exact ⟨rfl, key, envelope, ttl, closing, rfl, httl, rfl⟩
    · intro k
      constructor
      · intro hresult
        cases hput : sv.verdict "session store write" (.store (.put key _ ttl)) answer with
        | error f =>
          rw [hput] at hresult
          cases hresult
        | ok v =>
          rw [hput] at hresult
          cases hresult
          obtain rfl := verdict_eq_ok_iff.mp hput
          exact ⟨_, _, _, v, rfl⟩
      · rintro ⟨before, value, ttl', v, hsplit⟩
        obtain ⟨-, hput⟩ := List.append_inj' hsplit rfl
        cases hput
        rfl
    · intro f hresult
      cases hput : sv.verdict "session store write" (.store (.put key _ ttl)) answer with
      | error e =>
        rw [hput] at hresult
        cases hresult
        exact .inr ⟨_, _, _, _, _, rfl, putFailed_of_verdict hput⟩
      | ok v =>
        rw [hput] at hresult
        cases hresult

end Opening

/-- The same world with its store in memory. The others cannot reach it. -/
def World.remembering (w : World σ) : World (Vault σ) where
  respond v t
    | .store r =>
      let (answer, store) := v.store.answer t r
      ⟨answer, .ready, [], [], ⟨store, v.outside⟩, v⟩
    | c =>
      let r := w.respond v.outside t c
      ⟨r.answer, r.latency, r.before, r.after, ⟨v.store, r.state⟩, ⟨v.store, r.abandoned⟩⟩
  tick := w.tick
  tick_pos := w.tick_pos

theorem World.remembering_store (w : World σ) (v : Vault σ) (t : Instant) (r : StoreRequest) :
    w.remembering.respond v t (.store r) =
      ⟨(v.store.answer t r).1, .ready, [], [], ⟨(v.store.answer t r).2, v.outside⟩, v⟩ := rfl

theorem World.remembering_keeps (w : World σ) (store : MemoryStore) (c : Call)
    (h : ∀ r, c ≠ .store r) : w.remembering.Keeps (fun v => v.store = store) c := by
  intro v t hv
  cases c with
  | store r => exact absurd rfl (h r)
  | connect login => exact ⟨hv, hv⟩
  | listTables => exact ⟨hv, hv⟩
  | query sql => exact ⟨hv, hv⟩
  | close => exact ⟨hv, hv⟩
  | issueKey => exact ⟨hv, hv⟩
  | encrypt payload secret => exact ⟨hv, hv⟩
  | decrypt envelope secret => exact ⟨hv, hv⟩

theorem put_refused {store : MemoryStore} {now : Instant} {key : String} {value : Octets}
    {ttl : Duration} {e : StoreFault} (h : (store.answer now (.put key value ttl)).1 = .error e) :
    (store.answer now (.put key value ttl)).2 = store := by
  by_cases hzero : ttl.isZero = true
  · simp [MemoryStore.answer, MemoryStore.put, hzero, Except.map] at h
  · cases hafter : now.after? ttl with
    | none => simp [MemoryStore.answer, MemoryStore.put, hzero, hafter]
    | some expires => simp [MemoryStore.answer, MemoryStore.put, hzero, hafter, Except.map] at h

theorem Opening.store_eq {sv : Service} {w : World σ} {store : MemoryStore} {login : Login}
    {secret duration : String} {result : Result (Except ServiceFault String)} {v : Vault σ}
    {seen : List Exchange} (h : Opening sv w.remembering (fun v => v.store = store) login secret
      duration result v seen) (hfailed : ∀ key, result ≠ .value (.ok key)) : v.store = store := by
  cases h with
  | broken hI => exact hI
  | unstored hI hseen => exact hI
  | @stored key envelope ttl closing u _ t answer hI httl hgives =>
    obtain ⟨rfl, rfl⟩ | ⟨-, -, hready⟩ := hgives
    · rw [World.remembering_store] at hfailed
      cases hput : (u.store.answer t (.put key (Utf8.octets envelope) ttl)).1 with
      | error e => exact (put_refused hput).trans hI
      | ok stored => exact absurd (by rw [hput]; rfl) (hfailed key)
    · exact absurd rfl hready

/-- Opening makes a session or none: what a store is asked for is one put at the end, behind a login
that was tried and sealed, and the caller is told of a key just when it was carried out. With the
store in memory a session that was not opened has left no trace in it. -/
theorem openSession_atomic (sv : Service) (login : Login) (secret duration : String) (w : World σ)
    (s : σ) (store : MemoryStore) (t : Instant) :
    let r : Request := .openSession login secret duration
    Atomic sv login secret duration (exchanges.picked (r.serve sv w s t).trace)
        (r.serve sv w s t).result ∧
      let e := r.serve sv w.remembering ⟨store, s⟩ t
      (∀ key, e.result ≠ .value (.ok key)) → e.state.store = store := by
  intro r
  have hany : Leads exchanges w (sv.openSession login secret duration).run s t [] _ :=
    openSession_opening (fun c _ => w.keeps_true c) trivial t
  have hmemory : Leads exchanges w.remembering (sv.openSession login secret duration).run
      ⟨store, s⟩ t [] _ := openSession_opening (w.remembering_keeps store) rfl t
  exact ⟨Opening.atomic hany, Opening.store_eq hmemory⟩

end RowGate.Service
