import RowGate.Duration
import RowGate.Files
import RowGate.Record
import RowGate.Session.Key
import RowGate.Text.Blank

/-! # Settings

The values that a run is governed by. They come from a file, from the defaults where the
file is silent, and from variables of the environment, which count most. Variables are
taken in a fixed order, and the first one that does not read stops the taking.
-/
namespace RowGate

structure Settings where
  logLevel : String := "info"
  redisUrl : String := "redis://127.0.0.1:6379/0"
  operationTimeout : Word 64 := ⟨30, by decide⟩
  connectTimeout : Word 64 := ⟨10, by decide⟩
  keyCost : Word 32 := ⟨14, by decide⟩
  sendDetails : Bool := false
  deriving DecidableEq

namespace Settings

/-- What holds where nothing is given. -/
def standard : Settings := {}

def schema : Schema where
  name := "Config"
  members :=
    let d : Settings := {}
    [⟨"log_level", .text, some d.logLevel⟩, ⟨"redis_url", .text, some d.redisUrl⟩,
     ⟨"operation_timeout_secs", .word 64, some d.operationTimeout⟩,
     ⟨"connect_timeout_secs", .word 64, some d.connectTimeout⟩,
     ⟨"session_key_cost", .word 32, some d.keyCost⟩,
     ⟨"send_details_on_internal_error", .flag, some d.sendDetails⟩]

def toRow (s : Settings) : Row schema.members :=
  (s.logLevel, s.redisUrl, s.operationTimeout, s.connectTimeout, s.keyCost, s.sendDetails, ())

def ofRow : Row schema.members → Settings
  | (level, url, operation, connect, cost, details, ()) =>
    ⟨level, url, operation, connect, cost, details⟩

@[simp] theorem ofRow_toRow (s : Settings) : ofRow s.toRow = s := rfl

def decode (b : Octets) : Except Json.Fault Settings := (schema.decode b).map ofRow

def encode (s : Settings) : String := schema.encode s.toRow

/-- Longest timeout, in seconds: one day. -/
def longestTimeout : Nat := 86400

/-- The variables that settings are taken from, in their order. -/
inductive Variable where
  | logLevel
  | redisUrl
  | operationTimeout
  | connectTimeout
  | keyCost
  | sendDetails
  deriving DecidableEq, Repr

namespace Variable

def all : List Variable :=
  [.logLevel, .redisUrl, .operationTimeout, .connectTimeout, .keyCost, .sendDetails]

def name : Variable → String
  | .logLevel => "PG2JSON_LOG_LEVEL"
  | .redisUrl => "REDIS_URL"
  | .operationTimeout => "PG2JSON_OPERATION_TIMEOUT_SECS"
  | .connectTimeout => "PG2JSON_CONNECT_TIMEOUT_SECS"
  | .keyCost => "PG2JSON_SESSION_KEY_COST"
  | .sendDetails => "PG2JSON_SEND_DETAILS_ON_INTERNAL_ERROR"

end Variable

inductive Fault where
  | unreadable (v : Variable) (raw : String)
  | timeout (member : String) (seconds : Nat)
  | keyCost (cost : Nat)
  | logFile (path : String) (fault : FileFault)
  | file (fault : FileFault)
  | document (fault : Json.Fault)
  | noHome
  deriving DecidableEq

namespace Fault

def reason : Fault → String
  | .unreadable v raw => "invalid value for " ++ v.name ++ ": " ++ Text.quoted raw
  | .timeout member seconds =>
    member ++ " must be between 1 and " ++ toString longestTimeout ++ ", got " ++ toString seconds
  | .keyCost cost =>
    "session_key_cost must be between " ++ toString SessionKey.leastCost ++ " and " ++
      toString SessionKey.greatestCost ++ ", got " ++ toString cost
  | .logFile path fault => "open log file " ++ path ++ ": " ++ fault.message
  | .file fault => fault.message
  | .document fault => fault.message
  | .noHome => "Could not determine home directory"

def title : Fault → String
  | .file _ => "IO error"
  | .document _ => "JSON error"
  | .noHome => "Path error"
  | _ => "Configuration error"

def message (f : Fault) : String := f.title ++ ": " ++ f.reason

end Fault

/-- The value of each variable that is set. -/
abbrev Lookup := String → Option String

/-- The value of a variable; a blank one counts as not set. -/
def present (lookup : Lookup) (v : Variable) : Option String :=
  (lookup v.name).filter (fun raw => !Text.isBlankText raw)

/-- A natural of so many bits: digits, with or without a plus sign, between blanks. -/
def word? (bits : Nat) (raw : String) : Option (Word bits) :=
  let s := Text.trimmed raw.toList
  let digits := match s with
    | '+' :: rest => rest
    | s => s
  match Digits.natural? digits with
  | none => none
  | some n => if h : n < wordBound bits then some ⟨n, h⟩ else none

def flag? (raw : String) : Option Bool :=
  let s := Text.trimmed raw.toList
  if s = "true".toList then some true
  else if s = "false".toList then some false
  else none

/-- The settings with one of them read from a text. -/
def assign (s : Settings) (v : Variable) (raw : String) : Option Settings :=
  match v with
  | .logLevel => some { s with logLevel := raw }
  | .redisUrl => some { s with redisUrl := raw }
  | .operationTimeout => (word? 64 raw).map ({ s with operationTimeout := · })
  | .connectTimeout => (word? 64 raw).map ({ s with connectTimeout := · })
  | .keyCost => (word? 32 raw).map ({ s with keyCost := · })
  | .sendDetails => (flag? raw).map ({ s with sendDetails := · })

def overrideWith (lookup : Lookup) : List Variable → Settings → Settings × Except Fault Unit
  | [], s => (s, .ok ())
  | v :: vs, s =>
    match present lookup v with
    | none => overrideWith lookup vs s
    | some raw =>
      match s.assign v raw with
      | none => (s, .error (.unreadable v raw))
      | some s => overrideWith lookup vs s

/-- The settings after the variables, up to the first that does not read. -/
def override (s : Settings) (lookup : Lookup) : Settings × Except Fault Unit :=
  overrideWith lookup Variable.all s

def checkTimeout (member : String) (seconds : Nat) : Except Fault Unit :=
  if seconds = 0 ∨ longestTimeout < seconds then .error (.timeout member seconds) else .ok ()

def check (s : Settings) : Except Fault Unit := do
  checkTimeout "operation_timeout_secs" s.operationTimeout.val
  checkTimeout "connect_timeout_secs" s.connectTimeout.val
  if s.keyCost.val < SessionKey.leastCost ∨ SessionKey.greatestCost < s.keyCost.val then
    .error (.keyCost s.keyCost.val)

/-- The settings that the octets of a file describe. -/
def ofFile (content : Octets) : Except Fault Settings :=
  match Utf8.text content with
  | .error _ => .error (.file .notText)
  | .ok _ => match decode content with
    | .error f => .error (.document f)
    | .ok s => .ok s

/-- The settings of a run, from the file if there is one and from the environment. -/
def load (file : Option Octets) (lookup : Lookup) : Except Fault Settings := do
  let s ← match file with
    | none => .ok {}
    | some content => ofFile content
  let (s, taken) := s.override lookup
  taken
  s.check
  .ok s

def operationLimit (s : Settings) : Duration :=
  .ofSeconds s.operationTimeout.val s.operationTimeout.isLt

def connectLimit (s : Settings) : Duration :=
  .ofSeconds s.connectTimeout.val s.connectTimeout.isLt

end Settings
end RowGate
