import RowGate.Record
import RowGate.Text.Blank

/-! # Database logins

All that is needed to open a connection. The document of a login is what a session keeps
sealed; the displayed form never shows the password.
-/
namespace RowGate

structure Login where
  host : String
  port : Word 16
  user : String
  password : String
  database : String
  tls : Bool := false
  deriving DecidableEq

namespace Login

def schema : Schema where
  name := "ConnectionParameters"
  members :=
    [⟨"host", .text, none⟩, ⟨"port", .word 16, none⟩, ⟨"username", .text, none⟩,
     ⟨"password", .text, none⟩, ⟨"databaseName", .text, none⟩,
     ⟨"sslModeEnabled", .flag, some false⟩]

def toRow (l : Login) : Row schema.members :=
  (l.host, l.port, l.user, l.password, l.database, l.tls, ())

def ofRow : Row schema.members → Login
  | (host, port, user, password, database, tls, ()) => ⟨host, port, user, password, database, tls⟩

@[simp] theorem ofRow_toRow (l : Login) : ofRow l.toRow = l := rfl

def decode (s : Octets) : Except Json.Fault Login := (schema.decode s).map ofRow

def encode (l : Login) : String := schema.encode l.toRow

/-- The first member that is missing: a blank host, port zero, or another empty text. -/
def missing (l : Login) : Option String :=
  if Text.isBlankText l.host then some "host"
  else if l.port.val = 0 then some "port"
  else if l.user.isEmpty then some "username"
  else if l.password.isEmpty then some "password"
  else if l.database.isEmpty then some "databaseName"
  else none

/-- The login with its password masked. -/
def display (l : Login) : String :=
  schema.name ++ " \x7b host: " ++ Text.quoted l.host ++ ", port: " ++ toString l.port.val ++
    ", username: " ++ Text.quoted l.user ++ ", password: \"<redacted>\", database_name: " ++
    Text.quoted l.database ++ ", ssl_mode_enabled: " ++ (if l.tls then "true" else "false") ++
    " \x7d"

end Login
end RowGate
