import RowGate.Session.Store

/-! # A key-value server

The three commands that a session store sends, and how a server answers them: a value is
kept until so many milliseconds have passed and is replaced together with its expiry by
the next write. A server may also refuse a command with an error line.
-/
namespace RowGate.Redis

inductive Command where
  | set (key : String) (value : Octets) (millis : Nat)
  | get (key : String)
  | del (key : String)
  deriving DecidableEq

inductive Reply where
  | done
  | value (v : Option Octets)
  | count (n : Nat)
  | refused (line : String)
  deriving DecidableEq

structure Kept where
  value : Octets
  expires : Nat
  deriving DecidableEq

/-- Values under distinct keys with the milliseconds at which they expire, and what was received. -/
structure Server where
  kept : List (String × Kept) := []
  received : List Command := []

namespace Server

def find? (s : Server) (now : Nat) (key : String) : Option Kept :=
  match s.kept.lookup key with
  | some k => if now < k.expires then some k else none
  | none => none

def drop (s : Server) (key : String) : Server :=
  { s with kept := s.kept.filter (fun e => e.1 != key) }

def keep (s : Server) (key : String) (k : Kept) : Server :=
  { s with kept := (key, k) :: (s.drop key).kept }

def note (s : Server) (c : Command) : Server := { s with received := s.received ++ [c] }

/-- The answer to a command at a time in milliseconds, and the server after it. -/
def run (s : Server) (now : Nat) (c : Command) : Reply × Server :=
  let s := s.note c
  match c with
  | .set key value millis => (.done, s.keep key ⟨value, now + millis⟩)
  | .get key => (.value ((s.find? now key).map (·.value)), s)
  | .del key => (.count (if (s.find? now key).isSome then 1 else 0), s.drop key)

end Server

/-- Codes with a kind of their own. -/
def errorKinds : List (String × String) :=
  [("ERR", "ResponseError"), ("EXECABORT", "ExecAbortError"), ("LOADING", "BusyLoadingError"),
   ("NOSCRIPT", "NoScriptError"), ("MOVED", "Moved"), ("ASK", "Ask"), ("TRYAGAIN", "TryAgain"),
   ("CLUSTERDOWN", "ClusterDown"), ("CROSSSLOT", "CrossSlot"), ("MASTERDOWN", "MasterDown"),
   ("READONLY", "ReadOnly"), ("NOTBUSY", "NotBusy")]

/-- The text of an error line: a code, and details after the first blank. -/
def refusalText (line : String) : String :=
  let (code, rest) := line.toList.span (· != ' ')
  let code := String.ofList code
  let detail := String.ofList (rest.drop 1)
  match errorKinds.lookup code with
  | some kind =>
    if rest.isEmpty then "An error was signalled by the server- " ++ kind
    else "An error was signalled by the server - " ++ kind ++ ": " ++ detail
  | none => if rest.isEmpty then code else code ++ ": " ++ detail

end RowGate.Redis
