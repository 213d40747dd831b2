import RowGate.Files
import RowGate.Network.Address
import RowGate.Rejection

/-! # Dialling without a network

Where no network is at hand every attempt to reach a peer fails, and the name of the peer
says how: an address cannot be reached, a name that can be asked for finds nobody to answer,
and one that cannot is unknown. Sockets are files: a path leads to none, or to a file that is
no socket.
-/
namespace RowGate.Network

inductive DialFault where
  | unreachable
  | refused
  | file (f : FileFault)
  | unknownName
  | unresolved
  | nulInName
  | nulInPath
  | longPath
  deriving DecidableEq, Repr

namespace DialFault

def message : DialFault → String
  | .unreachable => "Network is unreachable (os error 101)"
  | .refused => "Connection refused (os error 111)"
  | .file f => f.message
  | .unknownName => "failed to lookup address information: Name or service not known"
  | .unresolved =>
    "failed to lookup address information: Temporary failure in name resolution"
  | .nulInName => "file name contained an unexpected NUL byte"
  | .nulInPath => "paths must not contain interior null bytes"
  | .longPath => "path must be shorter than SUN_LEN"

def kind : DialFault → NetworkKind
  | .unreachable => .other "NetworkUnreachable"
  | .refused => .refused
  | .file _ => .other "NotFound"
  | .unknownName => .other "Uncategorized"
  | .unresolved => .other "Uncategorized"
  | .nulInName => .other "InvalidInput"
  | .nulInPath => .other "InvalidInput"
  | .longPath => .other "InvalidInput"

end DialFault

def localName : String := "localhost"

/-- Octets that a part of a name may have. -/
def labelLimit : Nat := 63

/-- Octets that a name may have, each part and the end counting one more. -/
def nameLimit : Nat := 255

/-- The parts of a name; a dot at the end is none of them. -/
def labels (host : List Char) : List (List Char) :=
  match host.getLast? with
  | some '.' => if host.length = 1 then [] else Text.split '.' host.dropLast
  | _ => Text.split '.' host

/-- A name that can be asked for: its parts are neither empty nor too long. -/
def isAskable (host : List Char) : Bool :=
  let sizes := (labels host).map (fun l => (Utf8.encode l).length)
  sizes.all (fun n => 1 ≤ n && n ≤ labelLimit) && sizes.foldl (· + · + 1) 1 ≤ nameLimit

/-- How dialling a host by its name ends. -/
def dial (host : String) : DialFault :=
  let name := host.toList
  if name.any (·.toNat == 0) then .nulInName
  else if isAddress name || name.map Char.toLower = localName.toList then .unreachable
  else if isAskable name && (interface? name).isNone then .unresolved
  else .unknownName

/-- Octets that the path of a socket may have, its end included. -/
def socketPathLimit : Nat := 108

/-- What a path leads to: some file, or the fault of following it. -/
abbrev Lookup := Octets → Except FileFault Unit

/-- Every path leads nowhere. -/
def Lookup.nowhere : Lookup := fun _ => .error .notFound

/-- How dialling a socket by its path ends. -/
def dialSocket (look : Lookup) (path : Octets) : DialFault :=
  if path.contains 0 then .nulInPath
  else if socketPathLimit ≤ path.length then .longPath
  else match look path with
    | .ok _ => .refused
    | .error f => .file f

end RowGate.Network
