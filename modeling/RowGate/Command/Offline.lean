import RowGate.Command.Run
import RowGate.Gateway.Postgres
import RowGate.Session.Memory

/-! # Runs without a network

A world in which no server can be reached, keys and nonces come from a supply of random
octets, and sessions are kept in memory. Nothing in it takes time, though a key has to be
waited for.
-/
namespace RowGate.Command.Offline
open Log (Event)
open Service

/-- The store, and how often random octets have been drawn. -/
structure State where
  store : MemoryStore := .empty
  drawn : Nat := 0

/-- What a run meets: the supply of random octets, and the files that paths lead to. -/
structure Surroundings where
  random : Nat → Octets
  look : Network.Lookup := .nowhere

/-- The answers of the codec and of the issuer of keys are made with random octets. -/
def respond (cost : Nat) (around : Surroundings) (s : State) (t : Instant) (c : Call) :
    Response State c :=
  let random := around.random
  let next : State := { s with drawn := s.drawn + 2 }
  match c with
  | .issueKey =>
    let answer := SessionKey.issue cost (random s.drawn) (random (s.drawn + 1))
    ⟨answer, .after 0, [], if answer.isOk then [SessionKey.issued] else [], next, next⟩
  | .encrypt payload secret =>
    let nonce := (random s.drawn).take Envelope.nonceSize
    ⟨Envelope.wrap payload secret nonce, .ready, [], [], next, next⟩
  | .decrypt envelope secret => ⟨Envelope.unwrap envelope secret, .ready, [], [], s, s⟩
  | .store r =>
    let (answer, store) := s.store.answer t r
    ⟨answer, .ready, [], [], { s with store := store }, s⟩
  | .connect l => Postgres.offlineConnect around.look s l
  | .listTables => Postgres.offlineListTables s
  | .query q => Postgres.offlineQuery s q
  | .close => Postgres.offlineClose s

def world (cost : Nat) (around : Surroundings) : World State where
  respond := respond cost around

section Machine
variable {m : Type → Type} [Monad m]

/-- The machine over some files, a way to keep events, a clock and what surrounds a run. -/
def machine (files : FileSystem m) (keep : Log.Options → Event → m Unit) (clock : m Instant)
    (surroundings : m Surroundings) : Machine m where
  files := files
  keep := keep
  reachStore url _ := do
    let around ← surroundings
    pure (some (.error (Redis.unreachable around.look url)))
  perform settings tell p := do
    let t ← clock
    let around ← surroundings
    let ending := p.run (world settings.keyCost.val around) {} t
    for e in ending.events do
      tell e
    pure ending.result

end Machine

end RowGate.Command.Offline
