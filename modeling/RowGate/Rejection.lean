import RowGate.Text.Lowercase

/-! # Why a connection was rejected

A failed attempt to connect is recognised by the state code of the server, or else by the
kind of the network error and by the words of its message in lower case. What is
recognised the caller can correct; all else stays unrecognised.
-/
namespace RowGate

inductive Rejection where
  | unknownDatabase
  | invalidUser
  | invalidHost
  | invalidPort
  | noAccess
  deriving DecidableEq, Repr

def Rejection.text : Rejection → String
  | .unknownDatabase => "database does not exist"
  | .invalidUser => "invalid username"
  | .invalidHost => "invalid host"
  | .invalidPort => "invalid port"
  | .noAccess => "no access from this host"

def Rejection.detail : Rejection → String
  | .unknownDatabase => "DatabaseDoesNotExist"
  | .invalidUser => "InvalidUsername"
  | .invalidHost => "InvalidHost"
  | .invalidPort => "InvalidPort"
  | .noAccess => "NoAccess"

/-- Kinds of network errors, as far as they are told apart. -/
inductive NetworkKind where
  | refused
  | other (name : String)
  deriving DecidableEq, Repr

/-- A failed attempt: the state code and message of the server, or else, without a code, the kind
and message of a failure on the way to it. -/
structure ConnectFailure where
  state : Option String := none
  message : String := ""
  kind : Option NetworkKind := none
  deriving DecidableEq, Repr

namespace ConnectFailure

def server (state message : String) : ConnectFailure := ⟨some state, message, none⟩

def network (kind : Option NetworkKind) (message : String) : ConnectFailure := ⟨none, message, kind⟩

end ConnectFailure

/-- Messages of nested network errors, outermost first. -/
def chainMessage (links : List String) : String := ": ".intercalate links

namespace Rejection

def unknownDatabaseState : String := "3D000"
def invalidAuthorizationState : String := "28000"

def noEntryMarker : List Char := "no pg_hba.conf entry for host".toList

def unknownHostMarkers : List (List Char) :=
  ["no such host".toList, "name or service not known".toList,
   "nodename nor servname provided".toList, "no address associated with hostname".toList,
   "no such host is known".toList]

def refusedMarker : List Char := "connection refused".toList

def ofServer (state message : String) : Option Rejection :=
  if state = unknownDatabaseState then some .unknownDatabase
  else if state = invalidAuthorizationState then
    if Text.occursIn noEntryMarker message.toList then some .noAccess else some .invalidUser
  else none

def ofNetwork (kind : Option NetworkKind) (message : String) : Option Rejection :=
  let words := Text.lower message.toList
  if unknownHostMarkers.any (Text.occursIn · words) then some .invalidHost
  else if kind = some .refused ∨ Text.occursIn refusedMarker words then some .invalidPort
  else none

/-- A state code counts before all else. -/
def ofFailure (f : ConnectFailure) : Option Rejection :=
  match f.state with
  | some state => ofServer state f.message
  | none => ofNetwork f.kind f.message

end Rejection
end RowGate
