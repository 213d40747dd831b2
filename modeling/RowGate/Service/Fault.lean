import RowGate.Envelope
import RowGate.Gateway
import RowGate.Json.Scan
import RowGate.Session.Key
import RowGate.Session.Store

/-! # Why an operation fails

Some failures the caller can act on: an input is missing, or the outcome is one of a few
known ones. All others are internal; their text is shown only where details are wanted.
-/
namespace RowGate

/-- Outcomes that a caller can act on. -/
inductive KnownOutcome where
  | unknownDatabase
  | invalidUser
  | invalidHost
  | invalidPort
  | noAccess
  | sessionExpired
  deriving DecidableEq, Repr

namespace KnownOutcome

def message : KnownOutcome → String
  | .unknownDatabase =>
    "The entered database does not exist. Please verify the database name and try again"
  | .invalidUser => "Invalid username. Please check and try again."
  | .invalidHost => "Invalid database host. Please check and try again."
  | .invalidPort => "Invalid port number. Please check and try again."
  | .noAccess => "Access denied. Please verify your credentials and connection settings"
  | .sessionExpired => "Connection session time expired"

def detail : KnownOutcome → String
  | .unknownDatabase => "DatabaseDoesNotExist"
  | .invalidUser => "InvalidUsername"
  | .invalidHost => "InvalidHost"
  | .invalidPort => "InvalidPort"
  | .noAccess => "NoAccess"
  | .sessionExpired => "SessionExpired"

def ofRejection : Rejection → KnownOutcome
  | .unknownDatabase => .unknownDatabase
  | .invalidUser => .invalidUser
  | .invalidHost => .invalidHost
  | .invalidPort => .invalidPort
  | .noAccess => .noAccess

end KnownOutcome

inductive ServiceFault where
  | known (outcome : KnownOutcome)
  | invalidInput (reason : String)
  | invalidDuration (input reason : String)
  | sealing (fault : SealFault)
  | issuing (fault : IssueFault)
  | store (fault : StoreFault)
  | gateway (fault : GatewayFault)
  | document (fault : Json.Fault)
  | timeout (step : String) (limit : Duration)
  deriving DecidableEq

namespace ServiceFault

/-- What is said when details are withheld. -/
def internalMessage : String := "Internal server error"

def message : ServiceFault → String
  | .known outcome => outcome.message
  | .invalidInput reason => "Invalid input: " ++ reason
  | .invalidDuration input reason =>
    "Invalid session duration " ++ Text.quoted input ++ ": " ++ reason
  | .sealing fault => "Credential crypto error: " ++ fault.message
  | .issuing fault => "Session key error: " ++ fault.message
  | .store fault => "Session store error: " ++ fault.message
  | .gateway fault => "Database error: " ++ fault.message
  | .document fault => "Serialization error: " ++ fault.message
  | .timeout step limit => "Timed out during " ++ step ++ " (deadline " ++ limit.text ++ ")"

/-- The failure with the names of all that it is made of, as the log has it. Of a document the
place of the fault is left out. -/
def detail : ServiceFault → String
  | .known outcome => Text.applied "Domain" outcome.detail
  | .invalidInput reason => Text.applied "InvalidInput" (Text.quoted reason)
  | .invalidDuration input reason =>
    Text.composed "InvalidSessionDuration"
      [("input", Text.quoted input), ("reason", Text.quoted reason)]
  | .sealing fault => Text.applied "Crypto" fault.detail
  | .issuing fault => Text.applied "KeyIssuer" fault.detail
  | .store fault => Text.applied "Store" fault.detail
  | .gateway fault => Text.applied "Gateway" fault.detail
  | .document fault =>
    Text.applied "Serialization" (Text.applied "Error" (Text.quoted fault.message))
  | .timeout step limit =>
    Text.composed "Timeout" [("step", Text.quoted step), ("timeout", limit.text)]

/-- The caller caused the failure and can mend it. -/
def isCallers : ServiceFault → Bool
  | .known _ => true
  | .invalidInput _ => true
  | _ => false

def known? : ServiceFault → Option KnownOutcome
  | .known outcome => some outcome
  | _ => none

/-- The text that the caller is shown. -/
def shown (details : Bool) (f : ServiceFault) : String :=
  if f.isCallers || details then f.message else internalMessage

def missing (member : String) : ServiceFault := .invalidInput (member ++ " is required")

/-- A rejected attempt to connect is a known outcome. -/
def ofGateway : GatewayFault → ServiceFault
  | .rejected why => .known (.ofRejection why)
  | fault => .gateway fault

end ServiceFault
end RowGate
