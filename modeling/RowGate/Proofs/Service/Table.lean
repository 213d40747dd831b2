import RowGate.Proofs.Service.Operations

/-! # The table of sessions

To their callers the operations work on a table, which says of a key what login was kept under it,
under which secret, and until when. `Conforms` states what one request does to the table and what
it may do with the gateway. Nothing here speaks of octets, envelopes or documents.
-/
namespace RowGate.Service
variable {σ α : Type}

structure Session where
  login : Login
  secret : String
  expires : Instant
  deriving DecidableEq

abbrev Table := String → Option Session

namespace Table

def empty : Table := fun _ => none

def set (table : Table) (key : String) (session : Session) : Table :=
  fun k => if k = key then some session else table k

def drop (table : Table) (key : String) : Table := fun k => if k = key then none else table k

/-- The session under a key, strictly before it expires. -/
def live (table : Table) (key : String) (now : Instant) : Option Session :=
  (table key).filter fun session => now < session.expires

theorem live_eq_some_iff {table : Table} {key : String} {now : Instant} {session : Session} :
    table.live key now = some session ↔ table key = some session ∧ now < session.expires := by
  simp [live, Option.filter_eq_some_iff]

theorem live_eq_none_iff {table : Table} {key : String} {now : Instant} :
    table.live key now = none ↔ ∀ session, table key = some session → session.expires ≤ now := by
  simp [live, Option.filter_eq_none_iff]

end Table

/-- What the callers are concerned with in a run: attempts to connect, and puts into the store. -/
inductive Sight where
  | tried (login : Login)
  | put (key : String) (time : Instant)
  deriving DecidableEq

def sights : Pick Sight
  | .connect login, _, _ => some (.tried login)
  | .store (.put key _ _), t, _ => some (.put key t)
  | _, _, _ => none

/-- How a session is served at an instant: one that is not live is expired for the caller, and
nothing is tried; to the holder of its secret a live one gives the login, for one attempt. -/
structure Served (table : Table) (now : Instant) (key secret : String)
    (result : Result (Except ServiceFault α)) (seen : List Sight) : Prop where
  expired : table.live key now = none →
    result = .value (.error (.known .sessionExpired)) ∧ seen = []
  tried : ∀ session, table.live key now = some session → session.secret = secret →
    seen = [.tried session.login]

/-- What a request at an instant does: what came of it, what was seen, and the table after it. -/
def Conforms (table : Table) (now : Instant) : (r : Request) →
    Result (Except ServiceFault r.Value) → List Sight → Table → Prop
  | .testConnection _, _, _, after => after = table
  | .openSession login secret duration, result, seen, after =>
    (∀ key, result = .value (.ok key) → ∃ ttl time, lifetime duration = some (.ok ttl) ∧
      seen = [.tried login, .put key time] ∧
      after = table.set key ⟨login, secret, time + ttl.nanos⟩) ∧
    ((∀ key, result ≠ .value (.ok key)) → after = table)
  | .listTables key secret, result, seen, after =>
    (Text.isBlankText key = false → secret ≠ "" → Served table now key secret result seen) ∧
    after = table
  | .fetchRows key secret selection, result, seen, after =>
    (Text.isBlankText key = false → secret ≠ "" → selection.missing = none →
      Served table now key secret result seen) ∧
    after = table
  | .closeSession key, result, _, after =>
    (result = .value (.ok ()) → after = table.drop key) ∧
    (result ≠ .value (.ok ()) → after = table)

/-- What came of a request and what was seen of it determine the table after it. -/
theorem Conforms.unique {table a b : Table} {now : Instant} {r : Request}
    {result : Result (Except ServiceFault r.Value)} {seen : List Sight}
    (ha : Conforms table now r result seen a) (hb : Conforms table now r result seen b) :
    a = b := by
  cases r with
  | testConnection login => exact Eq.trans ha hb.symm
  | openSession login secret duration =>
    by_cases h : ∃ key, result = .value (.ok key)
    · obtain ⟨key, hkey⟩ := h
      obtain ⟨ttl, time, hlifetime, hseen, rfl⟩ := ha.1 key hkey
      obtain ⟨ttl', time', hlifetime', hseen', rfl⟩ := hb.1 key hkey
      obtain rfl : ttl = ttl' := by simpa [hlifetime] using hlifetime'
      obtain rfl : time = time' := by simpa [hseen] using hseen'
      rfl
    · have hfailed : ∀ key, result ≠ .value (.ok key) := fun key hkey => h ⟨key, hkey⟩
      exact (ha.2 hfailed).trans (hb.2 hfailed).symm
  | listTables key secret => exact ha.2.trans hb.2.symm
  | fetchRows key secret selection => exact ha.2.trans hb.2.symm
  | closeSession key =>
    by_cases h : result = .value (.ok ())
    · exact (ha.1 h).trans (hb.1 h).symm
    · exact (ha.2 h).trans (hb.2 h).symm

/-- Requests one after the other, each some time after the one before it has ended, follow a table
step by step. -/
def Follows (sv : Service) (w : World σ) : Table → σ → Instant → List (Nat × Request) → Prop
  | _, _, _, [] => True
  | table, s, t, (pause, r) :: rest =>
    let e := r.serve sv w s (t + pause)
    ∃ after, Conforms table (t + pause) r e.result (sights.picked e.trace) after ∧
      Follows sv w after e.state e.time rest

end RowGate.Service
