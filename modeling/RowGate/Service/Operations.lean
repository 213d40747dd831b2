import RowGate.Selection
import RowGate.Service.Lifetime
import RowGate.Service.Program
import RowGate.Service.Rendering

/-! # Operations on sessions

A session is a sealed login under a key that nobody can guess. Opening one tries the login
and keeps it; listing and fetching take it out again and use it for one connection; closing
drops it. Inputs are checked before anything is asked of anyone. Every call has the
deadline of its operation, and a connection that was opened is closed before the operation
returns, with a grace of its own.
-/
namespace RowGate

/-- What the operations are governed by. -/
structure Service where
  timeout : Duration

namespace Service
open Log (Event Level Recorded)

abbrev Operation (α : Type) := ExceptT ServiceFault Program α

/-- The part of the log that operations speak under. -/
def target : String := "pg2json_core::service"

def tell (level : Level) (message : String) (fields : List Log.Field) : Program Unit :=
  Program.tell (.say level target message fields)

/-- Time for closing a connection: five seconds. -/
def closeGrace : Duration := ⟨5 * nanosPerSecond, by decide⟩

/-- Thirty years of 365 days. -/
def farFuture : Duration := ⟨30 * 365 * 86400 * nanosPerSecond, by decide⟩

/-- The end of a timeout; one that the clock cannot express is far in the future. -/
def deadlineAfter (now : Instant) (timeout : Duration) : Instant :=
  match now.after? timeout with
  | some t => t
  | none => (now.after? farFuture).getD now

def deadline (s : Service) : Program Instant := do
  let now ← Program.now
  pure (deadlineAfter now s.timeout)

def require (present : Bool) (member : String) : Except ServiceFault Unit :=
  if present then .ok () else .error (.missing member)

def checkLogin (l : Login) : Except ServiceFault Unit :=
  match l.missing with
  | some member => .error (.missing member)
  | none => .ok ()

def checkSelection (q : Selection) : Except ServiceFault Unit :=
  match q.missing with
  | some member => .error (.missing member)
  | none => .ok ()

def checkSecret (secret : String) : Except ServiceFault Unit := require (!secret.isEmpty) "secret"

def checkKey (key : String) : Except ServiceFault Unit :=
  require (!Text.isBlankText key) "sessionKey"

/-- The lifetime of a new session. -/
def readLifetime (duration : String) : Operation Duration :=
  match lifetime duration with
  | some reading => ExceptT.mk (pure reading)
  | none => ExceptT.mk (.halt Duration.Spelled.Fault.carry.message)

/-- A call that must be answered before the deadline. -/
def bounded (s : Service) (deadline : Instant) (step : String) (c : Call) : Operation c.Value :=
  ExceptT.mk do
    match ← Program.ask c (.until deadline) with
    | some (.ok v) => pure (.ok v)
    | some (.error f) => pure (.error (c.failure f))
    | none => do
      tell .warn "operation deadline exceeded"
        [("step", .text step), ("timeout", .shown s.timeout.text)]
      pure (.error (.timeout step s.timeout))

/-- A computation by a collaborator. -/
def computed (c : Call) : Operation c.Value :=
  ExceptT.mk do
    match ← Program.computed c with
    | .ok v => pure (.ok v)
    | .error f => pure (.error (c.failure f))

/-- The outcome of a step, which the rest then decides about. -/
def attempt {α : Type} (step : Operation α) : Operation (Except ServiceFault α) :=
  ExceptT.lift step.run

def connect (s : Service) (login : Login) (deadline : Instant) : Operation Unit :=
  ExceptT.mk do
    match ← (s.bounded deadline "connect" (.connect login)).run with
    | .ok _ => do
      tell .debug "connected" [("host", .shown login.host)]
      pure (.ok ())
    | .error (.known outcome) => do
      tell .info "connection rejected"
        [("host", .shown login.host), ("reason", .shown outcome.message)]
      pure (.error (.known outcome))
    | .error f => do
      tell .error "failed to connect" [("host", .shown login.host), ("error", .shown f.message)]
      pure (.error f)

/-- Closes the connection; a failure is told and not returned. -/
def release : Program Unit := do
  match ← Program.ask .close (.within closeGrace) with
  | some (.ok _) => tell .debug "closed connection" []
  | some (.error f) => tell .warn "failed to close connection" [("error", .shown f.message)]
  | none => tell .warn "closing connection timed out" [("grace", .shown closeGrace.text)]

/-- The sealed text under a key. -/
def readSession (s : Service) (key : String) (deadline : Instant) : Operation Octets :=
  ExceptT.mk do
    match ← (s.bounded deadline "session store read" (.store (.get key))).run with
    | .ok stored => pure (.ok (stored.getD []))
    | .error (.store (.notFound _)) => do
      tell .info "session expired" [("session_key", .shown key)]
      pure (.error (.known .sessionExpired))
    | .error f => do
      tell .error "failed to read session"
        [("session_key", .shown key), ("error", .shown f.message)]
      pure (.error f)

def openEnvelope (key envelope secret : String) : Operation Octets :=
  ExceptT.mk do
    match ← Program.computed (.decrypt envelope secret) with
    | .ok payload => pure (.ok payload)
    | .error f => do
      tell .error "failed to decrypt session"
        [("session_key", .shown key), ("error", .shown f.message)]
      pure (.error (.sealing f))

/-- The login that a session keeps. -/
def loadSession (s : Service) (key secret : String) (deadline : Instant) : Operation Login := do
  checkKey key
  checkSecret secret
  let stored ← s.readSession key deadline
  let envelope ← match Utf8.text stored with
    | .ok t => pure t
    | .error f => throw (.sealing (.malformed f.message))
  let payload ← openEnvelope key envelope secret
  let login ← match Login.decode payload with
    | .ok l => pure l
    | .error f => throw (.document f)
  tell .debug "loaded session" [("session_key", .shown key)]
  pure login

/-- Connects and closes at once. Here a failure to close counts. -/
def testConnection (s : Service) (login : Login) : Operation Unit := do
  checkLogin login
  let deadline ← s.deadline
  s.connect login deadline
  match ← Program.ask .close .unlimited with
  | some (.error f) => do
    tell .error "failed to close test connection" [("error", .shown f.message)]
    throw (.gateway f)
  | _ => pure ()
  tell .info "test connection succeeded"
    [("host", .shown login.host), ("database", .shown login.database)]

/-- Tries a login and keeps it sealed under a new key, which is returned. -/
def openSession (s : Service) (login : Login) (secret duration : String) : Operation String := do
  checkLogin login
  checkSecret secret
  let ttl ← readLifetime duration
  let deadline ← s.deadline
  s.connect login deadline
  release
  let key ← s.bounded deadline "session key issue" .issueKey
  tell .debug "issued session key" []
  let envelope ← computed (.encrypt (Utf8.octets login.encode) secret)
  tell .debug "encrypted connection parameters" []
  match ← attempt (s.bounded deadline "session store write"
      (.store (.put key (Utf8.octets envelope) ttl))) with
  | .ok _ => pure ()
  | .error f => do
    tell .error "failed to store session" [("error", .shown f.message)]
    throw f
  tell .info "opened session" [("session_key", .shown key), ("ttl", .shown ttl.text)]
  pure key

/-- The names of the tables that a session can see. -/
def listTables (s : Service) (key secret : String) : Operation (List String) := do
  let deadline ← s.deadline
  let login ← s.loadSession key secret deadline
  s.connect login deadline
  let listed ← attempt (s.bounded deadline "list tables" .listTables)
  release
  let tables ← listed
  tell .debug "listed tables" [("count", .unsigned tables.length)]
  pure (tables.map TableRef.tableName)

/-- The rows of a selection as one array. -/
def fetchRows (s : Service) (key secret : String) (q : Selection) : Operation String := do
  checkSelection q
  let deadline ← s.deadline
  let login ← s.loadSession key secret deadline
  tell .debug "compiled query" [("table", .shown q.table), ("sql", .shown q.sql)]
  s.connect login deadline
  let fetched ← attempt (s.bounded deadline "query" (.query q.sql))
  release
  let rows ← fetched
  tell .debug "fetched rows" [("rows", .unsigned rows.length)]
  pure (arrayText rows)

/-- Drops a session; one that is not there counts as dropped. -/
def closeSession (s : Service) (key : String) : Operation Unit := do
  checkKey key
  let deadline ← s.deadline
  let _ ← s.bounded deadline "session store delete" (.store (.delete key))
  tell .info "closed session" [("session_key", .shown key)]

end Service
end RowGate
