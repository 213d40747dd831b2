import RowGate.Lookup
import RowGate.Session.Store

/-! # The store in memory

Entries of one process, each with the instant at which it expires. An entry is found
strictly before that instant. An expired one stays until it is asked for; a lifetime of
zero drops the entry at once.
-/
namespace RowGate

structure MemoryEntry where
  value : Octets
  expires : Instant
  deriving DecidableEq

/-- Entries under distinct keys. -/
structure MemoryStore where
  entries : List (String × MemoryEntry) := []

namespace MemoryStore

def empty : MemoryStore := {}

def size (s : MemoryStore) : Nat := s.entries.length

def find? (s : MemoryStore) (key : String) : Option MemoryEntry := s.entries.lookup key

def erase (s : MemoryStore) (key : String) : MemoryStore :=
  ⟨s.entries.filter (fun e => e.1 != key)⟩

def insert (s : MemoryStore) (key : String) (entry : MemoryEntry) : MemoryStore :=
  ⟨(key, entry) :: (s.erase key).entries⟩

def put (s : MemoryStore) (now : Instant) (key : String) (value : Octets) (ttl : Duration) :
    Except StoreFault Unit × MemoryStore :=
  if ttl.isZero then (.ok (), s.erase key)
  else match now.after? ttl with
    | none => (.error (.lifetimeOutOfRange ttl), s)
    | some expires => (.ok (), s.insert key ⟨value, expires⟩)

def get (s : MemoryStore) (now : Instant) (key : String) :
    Except StoreFault Octets × MemoryStore :=
  match s.find? key with
  | none => (.error (.notFound key), s)
  | some e => if now < e.expires then (.ok e.value, s) else (.error (.notFound key), s.erase key)

def delete (s : MemoryStore) (key : String) : Except StoreFault Unit × MemoryStore :=
  (.ok (), s.erase key)

/-- The answer to a request at an instant, and the store after it. -/
def answer (s : MemoryStore) (now : Instant) : StoreRequest → StoreAnswer × MemoryStore
  | .put key value ttl => let (r, s) := s.put now key value ttl; (r.map (fun _ => none), s)
  | .get key => let (r, s) := s.get now key; (r.map some, s)
  | .delete key => let (r, s) := s.delete key; (r.map (fun _ => none), s)

@[simp] theorem find?_erase (s : MemoryStore) (key k : String) :
    (s.erase key).find? k = if k = key then none else s.find? k :=
  lookup_filter_ne s.entries key k

@[simp] theorem find?_insert (s : MemoryStore) (key k : String) (e : MemoryEntry) :
    (s.insert key e).find? k = if k = key then some e else s.find? k :=
  lookup_replaced s.entries key k e

end MemoryStore
end RowGate
