import RowGate.Cell
import RowGate.Files.Path
import RowGate.Network
import RowGate.Service.Program

/-! # The PostgreSQL gateway

What the gateway makes of the answers of a client library: failures to connect are
recognised where they can be, tables outside the default schema are left out, and rows
that cannot be read are passed over. It says to the log what it does.
-/
namespace RowGate.Postgres
open Log (Event)

def target : String := "pg_gateway::postgres"
def rowsTarget : String := "pg_gateway::rows"

def connecting (l : Login) : Event :=
  .say .debug target "connecting to postgresql"
    [("host", .shown l.host), ("port", .unsigned l.port.val), ("database", .shown l.database),
     ("ssl", .flag l.tls)]

def connected (l : Login) : Event :=
  .say .info target "connected to postgresql"
    [("host", .shown l.host), ("database", .shown l.database)]

def rejected (why : Rejection) : Event :=
  .say .info target "postgresql rejected connection" [("kind", .shown why.text)]

/-- What an attempt to connect comes to, and what is said after it. -/
def attempted (l : Login) : Except ConnectFailure Unit → Except GatewayFault Unit × List Event
  | .ok _ => (.ok (), [connected l])
  | .error f =>
    match GatewayFault.ofFailure f with
    | .rejected why => (.error (.rejected why), [rejected why])
    | fault => (.error fault, [])

def filtered (total kept : Nat) : Event :=
  .say .debug rowsTarget "filtered tables to default schema"
    [("total", .unsigned total), ("public", .unsigned kept)]

/-- Tables by the rows of the catalog, unless the statement fails or a row cannot be read. -/
def listed : Except String (List (Cell × Cell)) →
    Except GatewayFault (List TableRef) × List Event
  | .error reason => (.error (.query ("select table names: " ++ reason)), [])
  | .ok rows =>
    match rows.mapM TableRef.ofCells with
    | .error reason => (.error (.query reason), [])
    | .ok tables =>
      let kept := defaultTables tables
      (.ok kept, [filtered tables.length kept.length])

def skipped : SkippedRow → Event
  | .null index => .say .debug rowsTarget "skipping NULL row" [("index", .unsigned index)]
  | .unreadable index reason =>
    .say .warn rowsTarget "skipping unreadable row"
      [("index", .unsigned index), ("error", .shown reason)]

def returned (count : Nat) : Event :=
  .say .debug target "query returned rows" [("rows", .unsigned count)]

/-- Fragments by the cells of the first column, unless the statement fails. -/
def fetched : Except String (FirstColumn × List Cell) →
    Except GatewayFault (List String) × List Event
  | .error reason => (.error (.query ("run query: " ++ reason)), [])
  | .ok (column, cells) =>
    let (texts, left) := fragments (cells.map column.read)
    (.ok texts, left.map skipped ++ [returned texts.length])

def closed : Except String Unit → Except GatewayFault Unit × List Event
  | .ok _ => (.ok (), [.say .info target "closed postgresql connection" []])
  | .error reason => (.error (.close reason), [])

/-- The socket of a server below a directory. -/
def socketPath (directory : String) (port : Word 16) : String :=
  Path.join directory (".s.PGSQL." ++ toString port.val)

/-- How dialling the server of a login ends; a host that begins with a slash is the directory
of a socket. -/
def dial (look : Network.Lookup) (l : Login) : Network.DialFault :=
  if Path.isAbsolute l.host then Network.dialSocket look (Utf8.octets (socketPath l.host l.port))
  else Network.dial l.host

/-- The failure of an attempt to connect when no network is at hand. -/
def unreachable (look : Network.Lookup) (l : Login) : ConnectFailure :=
  let fault := dial look l
  .network (some fault.kind) (chainMessage ["error connecting to server", fault.message])

/-- What is said of a statement on a connection that is not there. -/
def noConnection : String := "connection closed"

section Offline
variable {σ : Type}

def offlineConnect (look : Network.Lookup) (s : σ) (l : Login) :
    Service.Response σ (.connect l) :=
  let (answer, after) := attempted l (.error (unreachable look l))
  ⟨answer, .ready, [connecting l], after, s, s⟩

def offlineListTables (s : σ) : Service.Response σ .listTables :=
  let (answer, after) := listed (.error noConnection)
  ⟨answer, .ready, [], after, s, s⟩

def offlineQuery (s : σ) (sql : String) : Service.Response σ (.query sql) :=
  let (answer, after) := fetched (.error noConnection)
  ⟨answer, .ready, [], after, s, s⟩

def offlineClose (s : σ) : Service.Response σ .close :=
  let (answer, after) := closed (.ok ())
  ⟨answer, .ready, [], after, s, s⟩

end Offline

end RowGate.Postgres
