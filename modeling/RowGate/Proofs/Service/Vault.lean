import RowGate.Proofs.Envelope
import RowGate.Proofs.Record
import RowGate.Proofs.Service.Table
import RowGate.Session.Memory

/-! # Sessions kept in memory and sealed

With the store in memory and the cipher of envelopes, and with any gateway and any issuer of keys,
the operations follow the table of sessions. Each entry of the store is the envelope of the login
in the table, under the secret in the table, and expires with it; a session that has left the
store has expired in the table too.
-/
namespace RowGate.Service
variable {σ α ε : Type}

def Nonce := {octets : Octets // octets.length = Envelope.nonceSize}

/-- A gateway and an issuer that may do anything, and a supply of nonces. -/
structure Outside (σ : Type) extends World σ where
  draw : σ → Nonce × σ

structure Vault (σ : Type) where
  store : MemoryStore
  outside : σ

namespace Outside

/-- The store answers from memory, the codec seals and opens, and the others cannot reach the
store. -/
def answer (o : Outside σ) (v : Vault σ) (t : Instant) : (c : Call) → Response (Vault σ) c
  | .encrypt payload secret =>
    let (nonce, s) := o.draw v.outside
    ⟨Envelope.wrap payload secret nonce.1, .ready, [], [], ⟨v.store, s⟩, ⟨v.store, s⟩⟩
  | .decrypt envelope secret => ⟨Envelope.unwrap envelope secret, .ready, [], [], v, v⟩
  | .store r =>
    let (answer, store) := v.store.answer t r
    ⟨answer, .ready, [], [], ⟨store, v.outside⟩, v⟩
  | c =>
    let r := o.respond v.outside t c
    ⟨r.answer, r.latency, r.before, r.after, ⟨v.store, r.state⟩, ⟨v.store, r.abandoned⟩⟩

def vault (o : Outside σ) : World (Vault σ) where
  respond := o.answer
  tick := o.tick
  tick_pos := o.tick_pos

theorem respond_encrypt (o : Outside σ) (v : Vault σ) (t : Instant) (payload : Octets)
    (secret : String) :
    o.vault.respond v t (.encrypt payload secret) =
      ⟨Envelope.wrap payload secret (o.draw v.outside).1.1, .ready, [], [],
        ⟨v.store, (o.draw v.outside).2⟩, ⟨v.store, (o.draw v.outside).2⟩⟩ := rfl

theorem respond_decrypt (o : Outside σ) (v : Vault σ) (t : Instant) (envelope secret : String) :
    o.vault.respond v t (.decrypt envelope secret) =
      ⟨Envelope.unwrap envelope secret, .ready, [], [], v, v⟩ := rfl

theorem respond_store (o : Outside σ) (v : Vault σ) (t : Instant) (r : StoreRequest) :
    o.vault.respond v t (.store r) =
      ⟨(v.store.answer t r).1, .ready, [], [], ⟨(v.store.answer t r).2, v.outside⟩, v⟩ := rfl

theorem keeps_store (o : Outside σ) (store : MemoryStore) {c : Call} (h : ∀ r, c ≠ .store r) :
    o.vault.Keeps (fun v => v.store = store) c := by
  intro v t hv
  cases c with
  | store r => exact absurd rfl (h r)
  | connect login => exact ⟨hv, hv⟩
  | listTables => exact ⟨hv, hv⟩
  | query sql => exact ⟨hv, hv⟩
  | close => exact ⟨hv, hv⟩
  | issueKey => exact ⟨hv, hv⟩
  | encrypt payload secret => exact ⟨hv, hv⟩
  | decrypt envelope secret => exact ⟨hv, hv⟩

end Outside

structure Holds (entry : MemoryEntry) (session : Session) : Prop where
  sealed : ∃ (nonce : Nonce) (envelope : String),
    Envelope.wrap (Utf8.octets session.login.encode) session.secret nonce.1 = .ok envelope ∧
      entry.value = Utf8.octets envelope
  expires : entry.expires = session.expires

/-- An entry of the store and one of the table belong together at an instant. -/
inductive Mirrored (now : Instant) : Option MemoryEntry → Option Session → Prop where
  | kept {entry : MemoryEntry} {session : Session} (h : Holds entry session) :
      Mirrored now (some entry) (some session)
  | gone {session? : Option Session} (h : ∀ session, session? = some session →
      session.expires ≤ now) : Mirrored now none session?

def Mirrors (table : Table) (store : MemoryStore) (now : Instant) : Prop :=
  ∀ key, Mirrored now (store.find? key) (table key)

namespace Mirrors
variable {table : Table} {store : MemoryStore} {now later : Instant} {key : String}

theorem empty (now : Instant) : Mirrors Table.empty .empty now :=
  fun _ => .gone fun _ h => by cases h

theorem mono (h : Mirrors table store now) (hle : now ≤ later) : Mirrors table store later := by
  intro k
  exact match store.find? k, table k, h k with
  | _, _, .kept hk => .kept hk
  | _, _, .gone hk => .gone fun session hs => Nat.le_trans (hk session hs) hle

theorem insert (h : Mirrors table store now) {entry : MemoryEntry} {session : Session}
    (he : Holds entry session) :
    Mirrors (table.set key session) (store.insert key entry) now := by
  intro k
  rw [MemoryStore.find?_insert, Table.set]
  split
  · exact .kept he
  · exact h k

theorem drop (h : Mirrors table store now) : Mirrors (table.drop key) (store.erase key) now := by
  intro k
  rw [MemoryStore.find?_erase, Table.drop]
  split
  · exact .gone fun _ hs => by cases hs
  · exact h k

/-- An expired entry may be dropped from the store alone. -/
theorem erase_expired (h : Mirrors table store now) (hx : table.live key now = none) :
    Mirrors table (store.erase key) now := by
  intro k
  rw [MemoryStore.find?_erase]
  split
  · next hk =>
    subst hk
    exact .gone (Table.live_eq_none_iff.mp hx)
  · exact h k

theorem get (h : Mirrors table store now) (key : String) :
    Mirrors table (store.get now key).2 now ∧
      match table.live key now with
      | none => (store.get now key).1 = .error (.notFound key)
      | some session => ∃ entry, Holds entry session ∧ (store.get now key).1 = .ok entry.value := by
  have hk := h key
  unfold MemoryStore.get
  -- The lookups are made variables, so that the cases of `Mirrored` can be told apart.
  revert hk
  generalize hf : store.find? key = found
  generalize ht : table key = session?
  intro hk
  cases hk with
  | @kept entry session he =>
    by_cases hlt : now < entry.expires
    · have hlive : table.live key now = some session :=
        Table.live_eq_some_iff.mpr ⟨ht, he.expires ▸ hlt⟩
      simp only [if_pos hlt, hlive]
      exact ⟨h, entry, he, rfl⟩
    · have hlive : table.live key now = none := by
        rw [Table.live_eq_none_iff, ht]
        rintro _ ⟨rfl⟩
        rw [← he.expires]
        exact Nat.le_of_not_lt hlt
      simp only [if_neg hlt, hlive]
      exact ⟨h.erase_expired hlive, trivial⟩
  | gone hx =>
    have hlive : table.live key now = none := by
      rw [Table.live_eq_none_iff, ht]
      exact hx
    simp only [hlive]
    exact ⟨h, trivial⟩

/-- A put of a sealed login that does not fail keeps the session until its lifetime is over. -/
theorem put (h : Mirrors table store now) {login : Login} {secret envelope : String} {nonce : Nonce}
    {ttl : Duration} (hz : ttl.isZero = false)
    (hw : Envelope.wrap (Utf8.octets login.encode) secret nonce.1 = .ok envelope)
    (key : String) (time : Instant) :
    (∃ f, store.put time key (Utf8.octets envelope) ttl = (.error f, store)) ∨
      ∃ store', store.put time key (Utf8.octets envelope) ttl = (.ok (), store') ∧
        Mirrors (table.set key ⟨login, secret, time + ttl.nanos⟩) store' now := by
  unfold MemoryStore.put
  rw [hz]
  cases ha : Instant.after? time ttl with
  | none => exact .inl ⟨_, rfl⟩
  | some expires =>
    obtain ⟨-, rfl⟩ := Instant.after?_eq_some.mp ha
    exact .inr ⟨_, rfl, h.insert ⟨⟨nonce, envelope, hw, rfl⟩, rfl⟩⟩

end Mirrors

theorem Holds.opened {entry : MemoryEntry} {session : Session} (h : Holds entry session) :
    ∃ envelope, envelopeText entry.value = .ok envelope ∧
      loginOf (Envelope.unwrap envelope session.secret) = .ok session.login := by
  obtain ⟨nonce, envelope, hwrap, hvalue⟩ := h.sealed
  refine ⟨envelope, ?_, ?_⟩
  · rw [envelopeText, hvalue, Utf8.text_octets]
    rfl
  · rw [Envelope.unwrap_of_wrap hwrap nonce.2, loginOf_ok, Login.decode_encode]
    rfl

structure Loaded (table : Table) (now : Instant) (key secret : String)
    (loaded : Except ServiceFault Login) : Prop where
  expired : table.live key now = none → loaded = .error (.known .sessionExpired)
  kept : ∀ session, table.live key now = some session → session.secret = secret →
    loaded = .ok session.login

end RowGate.Service
