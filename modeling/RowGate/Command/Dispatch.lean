import RowGate.Command.Invocation
import RowGate.Command.Reply
import RowGate.Service.Operations

/-! # Commands as operations

Each command is one operation of the service, and its outcome is one reply. The outcome is
told to the log in full, what the caller did not cause with its parts; the reply holds what the
caller may see.
-/
namespace RowGate.Command
open Log (Level)

def target : String := "pg2json::app"

def connectedMessage : String :=
  "We have successfully established a connection with your database."
def sessionClosedMessage : String := "Session closed."

def dispatch (s : Service) : Command → Service.Operation Reply
  | .testConnection login => do
    s.testConnection login
    pure (.message connectedMessage)
  | .openSession login secret duration => do
    let key ← s.openSession login secret duration
    pure (.one "sessionKey" (.string key))
  | .listTables key secret => do
    let tables ← s.listTables key secret
    pure (.one "tables" (.array (tables.map .string)))
  | .getJson key secret selection => do
    let result ← s.fetchRows key secret selection
    pure (.one "result" (.string result))
  | .closeSession key => do
    s.closeSession key
    pure (.message sessionClosedMessage)

def tell (level : Level) (message : String) (fields : List Log.Field) : Service.Program Unit :=
  Service.Program.tell (.say level target message fields)

/-- The reply to a command under some settings. -/
def reply (settings : Settings) (c : Command) : Service.Program Reply := do
  match ← (dispatch ⟨settings.operationLimit⟩ c).run with
  | .ok r => do
    tell .info "command succeeded" [("operation", .text c.name)]
    pure r
  | .error f => do
    if f.isCallers then
      tell .info "command rejected" [("operation", .text c.name), ("error", .shown f.message)]
    else
      tell .error "command failed" [("operation", .text c.name), ("error", .shown f.detail)]
    pure (.failure settings.sendDetails f)

end RowGate.Command
