import RowGate.Log.Event
import RowGate.Network
import RowGate.Redis.Address
import RowGate.Redis.Server

/-! # The store behind a key-value server

Expiry is left to the server. Lifetimes go over the wire in whole milliseconds; one that
is shorter drops the entry, since the server refuses a lifetime of zero.
-/
namespace RowGate.Redis

/-- What a request becomes: a command, or a refusal before anything is sent. -/
def command : StoreRequest → Except StoreFault Command
  | .put key value ttl =>
    if wordBound 64 ≤ ttl.millis then .error (.lifetimeOutOfRange ttl)
    else if ttl.millis = 0 then .ok (.del key)
    else .ok (.set key value ttl.millis)
  | .get key => .ok (.get key)
  | .delete key => .ok (.del key)

/-- What a reply means for the request that it answers. -/
def meaning (r : StoreRequest) : Reply → StoreAnswer
  | .refused line =>
    match r with
    | .get _ => .error (.service (refusalText line))
    | _ => .error (.write (refusalText line))
  | .value (some v) => .ok (some v)
  | .value none => .error (.notFound r.key)
  | .done => .ok none
  | .count _ => .ok none

/-- The answer to a request when the server answers the command at once. -/
def answer (s : Server) (now : Nat) (r : StoreRequest) : StoreAnswer × Server :=
  match command r with
  | .error f => (.error f, s)
  | .ok c => let (reply, s) := s.run now c; (meaning r reply, s)

def target : String := "session_store::redis_store"

def connected : Log.Event := .say .info target "connected to redis session store" []

/-- Why the server at an address cannot be reached when no network is at hand. -/
def unreachable (look : Network.Lookup) (url : String) : StoreFault :=
  .service (match Address.parse url with
    | .error f => f.message
    | .ok a => match a.endpoint with
      | .host name _ => (Network.dial name).message
      | .socket path => (Network.dialSocket look path).message)

end RowGate.Redis
