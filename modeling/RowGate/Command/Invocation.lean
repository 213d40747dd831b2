import RowGate.Command.Usage
import RowGate.Login
import RowGate.Selection
import RowGate.Settings

/-! # Commands

The five commands and what each is given. The password and the secret may come from the
environment instead of the command line.
-/
namespace RowGate

inductive Command where
  | testConnection (login : Login)
  | openSession (login : Login) (secret duration : String)
  | listTables (key secret : String)
  | getJson (key secret : String) (selection : Selection)
  | closeSession (key : String)
  deriving DecidableEq

/-- A command with the options that all commands have. -/
structure Invocation where
  command : Command
  logLevel : Option String := none
  base : Option String := none
  verbose : Bool := false
  deriving DecidableEq

namespace Command

def name : Command → String
  | testConnection _ => "test-connection"
  | openSession _ _ _ => "open-session"
  | listTables _ _ => "list-tables"
  | getJson _ _ _ => "get-json"
  | closeSession _ => "close-session"

def names : List String :=
  ["test-connection", "open-session", "list-tables", "get-json", "close-session"]

def helpName : String := "help"

def passwordVariable : String := "PG2JSON_DB_PASSWORD"
def secretVariable : String := "PG2JSON_SESSION_SECRET"

def globalFlags : List Flag :=
  [⟨"log-level", some 'l', some "LOG_LEVEL", .text, false, .record⟩,
   ⟨"base-dir", none, some "BASE_DIR", .path, false, .record⟩,
   ⟨"verbose", some 'v', none, .text, false, .record⟩,
   ⟨"help", some 'h', none, .text, false, .help⟩]

def outerFlags : List Flag := globalFlags ++ [⟨"version", some 'V', none, .text, false, .version⟩]

def valueFlag (long placeholder : String) : Flag :=
  ⟨long, none, some placeholder, .text, false, .record⟩
def numberFlag (long placeholder : String) (greatest : Nat) : Flag :=
  ⟨long, none, some placeholder, .upTo greatest, false, .record⟩

def loginFlags : List Flag :=
  [valueFlag "host" "HOST", numberFlag "port" "PORT" 65535, valueFlag "username" "USERNAME",
   valueFlag "password" "PASSWORD", valueFlag "database" "DATABASE_NAME",
   ⟨"ssl", none, none, .text, false, .record⟩]

def keyFlag : Flag := valueFlag "session-key" "SESSION_KEY"
def secretFlag : Flag := valueFlag "secret" "VALUE"

def flagsOf (command : String) : List Flag :=
  globalFlags ++
    (if command = "test-connection" then loginFlags
     else if command = "open-session" then
      loginFlags ++ [secretFlag, valueFlag "duration" "DURATION"]
     else if command = "list-tables" then [keyFlag, secretFlag]
     else if command = "get-json" then
      [keyFlag, secretFlag, valueFlag "table" "TABLE",
       ⟨"field", none, some "FIELDS", .text, true, .record⟩, valueFlag "where" "WHERE_CLAUSE",
       numberFlag "limit" "LIMIT" 4294967295]
     else [keyFlag])

def required (v : Option String) : Except Stop String :=
  match v with
  | some s => .ok s
  | none => .error (.fault .missingArguments)

def word (bits : Nat) (value : String) : Option (Word bits) :=
  match boundedNatural (wordBound bits - 1) value.toList with
  | .ok n => if h : n < wordBound bits then some ⟨n, h⟩ else none
  | .error _ => none

def defaultPort : Word 16 := ⟨5432, by decide⟩

def login (v : Values) (lookup : Settings.Lookup) : Except Stop Login := do
  let host ← required (v.lookup "host")
  let user ← required (v.lookup "username")
  let password ← required (v.lookup "password" <|> lookup passwordVariable)
  let database ← required (v.lookup "database")
  let port := ((v.lookup "port").bind (word 16)).getD defaultPort
  .ok ⟨host, port, user, password, database, (v.lookup "ssl").isSome⟩

def secret (v : Values) (lookup : Settings.Lookup) : Except Stop String :=
  required (v.lookup "secret" <|> lookup secretVariable)

def selection (v : Values) : Except Stop Selection := do
  let table ← required (v.lookup "table")
  .ok ⟨table, (v.filter (·.1 == "field")).map (·.2), v.lookup "where",
    (v.lookup "limit").bind (word 32)⟩

def ofValues (command : String) (v : Values) (lookup : Settings.Lookup) : Except Stop Command :=
  if command = "test-connection" then do
    .ok (.testConnection (← login v lookup))
  else if command = "open-session" then do
    let l ← login v lookup
    let s ← secret v lookup
    .ok (.openSession l s (← required (v.lookup "duration")))
  else if command = "list-tables" then do
    let key ← required (v.lookup "session-key")
    .ok (.listTables key (← secret v lookup))
  else if command = "get-json" then do
    let key ← required (v.lookup "session-key")
    let s ← secret v lookup
    .ok (.getJson key s (← selection v))
  else do
    .ok (.closeSession (← required (v.lookup "session-key")))

end Command

namespace Invocation
open Command

/-- Help about a command, or about none; commands have no commands of their own. -/
def helpAbout : List String → Stop
  | [] => .help
  | [a] => if (helpName :: names).contains a then .help else .fault (.unrecognized a)
  | a :: b :: _ =>
    if (helpName :: names).contains a then .fault (.unrecognized b) else .fault (.unrecognized a)

/-- What the arguments of the program ask for. Of an option before and after the name of the
command the later one counts. -/
def parse (lookup : Settings.Lookup) (arguments : List String) : Except Stop Invocation := do
  let (outer, found) ← Scan.run outerFlags (names ++ [helpName]) {} arguments
  match found with
  | some (command, rest) =>
    if command = helpName then .error (helpAbout rest)
    else do
      let (inner, _) ← Scan.run (flagsOf command) [] {} rest
      let inner ← inner.settle
      let c ← Command.ofValues command inner.values lookup
      let outer ← outer.settle
      let either (name : String) : Option String :=
        inner.values.lookup name <|> outer.values.lookup name
      .ok ⟨c, either "log-level", either "base-dir", (either "verbose").isSome⟩
  | none => do
    let outer ← outer.settle
    .error (if outer.values.isEmpty then .nothing else .fault .noCommand)

end Invocation
end RowGate
