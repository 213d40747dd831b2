import RowGate.Clock
import RowGate.Text.Quoted
import RowGate.Text.Utf8

/-! # Session stores

A store keeps octets under text keys for a limited time. It can be asked to keep, to give
and to drop an entry; an entry that is absent or has expired is not found.
-/
namespace RowGate

inductive StoreFault where
  | notFound (key : String)
  | service (reason : String)
  | write (reason : String)
  deriving DecidableEq, Repr

namespace StoreFault

def message : StoreFault → String
  | .notFound key => "Key not found: " ++ key
  | .service reason => "Redis error: " ++ reason
  | .write reason => "Store write error: " ++ reason

/-- What the server reported stands as it is. -/
def detail : StoreFault → String
  | .notFound key => Text.applied "NotFound" (Text.quoted key)
  | .service reason => Text.applied "Redis" reason
  | .write reason => Text.applied "Write" (Text.quoted reason)

def isNotFound : StoreFault → Bool
  | .notFound _ => true
  | _ => false

/-- A lifetime that the store cannot keep time for. -/
def lifetimeOutOfRange (ttl : Duration) : StoreFault := .write ("ttl out of range: " ++ ttl.text)

end StoreFault

/-- What a store can be asked. -/
inductive StoreRequest where
  | put (key : String) (value : Octets) (ttl : Duration)
  | get (key : String)
  | delete (key : String)
  deriving DecidableEq

def StoreRequest.key : StoreRequest → String
  | .put key _ _ => key
  | .get key => key
  | .delete key => key

/-- What it answers: a value to `get`, nothing to the others. -/
abbrev StoreAnswer := Except StoreFault (Option Octets)

end RowGate
