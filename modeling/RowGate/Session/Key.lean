import RowGate.Cipher.Blowfish
import RowGate.Log.Event
import RowGate.Text.Digits
import RowGate.Text.Quoted

/-! # Session keys

A session key is the slow salted digest of a random identifier that nobody keeps. The
cost is the binary logarithm of the number of mixing rounds; the text of a key holds the
cost, the salt and the digest.
-/
namespace RowGate

inductive IssueFault where
  | hashing (reason : String)
  | task (reason : String)
  deriving DecidableEq, Repr

def IssueFault.message : IssueFault → String
  | .hashing reason => "Hashing error: " ++ reason
  | .task reason => "Task join error: " ++ reason

def IssueFault.detail : IssueFault → String
  | .hashing reason => Text.applied "Hashing" (Text.quoted reason)
  | .task reason => Text.applied "Join" (Text.quoted reason)

namespace SessionKey
open Cipher

def defaultCost : Nat := 14
def leastCost : Nat := 4
def greatestCost : Nat := 31

/-- Symbols of keys, six bits each. -/
def symbol (n : Nat) : Char :=
  if n = 0 then '.' else if n = 1 then '/'
  else if n < 28 then Char.ofNat (65 + (n - 2))
  else if n < 54 then Char.ofNat (97 + (n - 28))
  else Char.ofNat (48 + (n - 54))

def isSymbol (c : Char) : Bool :=
  c = '.' || c = '/' || ('A' ≤ c && c ≤ 'Z') || ('a' ≤ c && c ≤ 'z') || ('0' ≤ c && c ≤ '9')

/-- Three octets to four symbols, without padding. -/
def symbols : Octets → List Char
  | [] => []
  | [a] => [symbol (a.toNat / 4), symbol (a.toNat % 4 * 16)]
  | [a, b] =>
    [symbol (a.toNat / 4), symbol (a.toNat % 4 * 16 + b.toNat / 16), symbol (b.toNat % 16 * 4)]
  | a :: b :: c :: rest =>
    symbol (a.toNat / 4) :: symbol (a.toNat % 4 * 16 + b.toNat / 16) ::
      symbol (b.toNat % 16 * 4 + c.toNat / 64) :: symbol (c.toNat % 64) :: symbols rest

/-- Alternate mixing of the key and of the salt. -/
def stretch (key salt : Array UInt8) (t : Blowfish.Tables) (count : Nat) : Blowfish.Tables :=
  Nat.repeat (fun t => Blowfish.mix (Blowfish.mix t #[0, 0, 0, 0] key) #[0, 0, 0, 0] salt) count t

def magic : Octets := Utf8.octets "OrpheanBeholderScryDoubt"

def encipherPairs (t : Blowfish.Tables) : List UInt32 → List UInt32
  | l :: r :: rest =>
    let (l, r) := Nat.repeat (fun (l, r) => Blowfish.encipher t l r) 64 (l, r)
    l :: r :: encipherPairs t rest
  | rest => rest

/-- The 23 octets of the digest; of the secret, 72 octets count. -/
def digest (secret salt : Octets) (cost : Nat) : Octets :=
  let key := ((secret ++ [0]).take 72).toArray
  let start := Blowfish.mix Blowfish.initial (wordsBig salt).toArray key
  let t := stretch key salt.toArray start (Nat.pow 2 cost)
  ((encipherPairs t (wordsBig magic)).flatMap (fun w => toBigEndian 4 w.toNat)).take 23

/-- The text of a key from its parts. -/
def layout (cost : Nat) (salt digest : Octets) : String :=
  String.ofList ("$2b$".toList ++ Digits.padded 2 cost ++ '$' :: (symbols salt ++ symbols digest))

/-- A random identifier in its usual form: version 4, in five groups. -/
def identifier (random : Octets) : String :=
  let octet (i : Nat) : Nat := (random.getD i 0).toNat
  let fixed (i : Nat) : Nat :=
    if i = 6 then octet 6 % 16 + 0x40 else if i = 8 then octet 8 % 64 + 0x80 else octet i
  let group (start count : Nat) : List Char :=
    (List.range count).flatMap (fun j => Text.hexPadded 2 (fixed (start + j)))
  String.ofList (group 0 4 ++ '-' :: group 4 2 ++ '-' :: group 6 2 ++ '-' :: group 8 2 ++
    '-' :: group 10 6)

def costFault (cost : Nat) : IssueFault :=
  .hashing ("Cost needs to be between 4 and 31, got " ++ toString cost)

/-- The key for a random identifier and a random salt of 16 octets each. -/
def issue (cost : Nat) (random salt : Octets) : Except IssueFault String :=
  if leastCost ≤ cost ∧ cost ≤ greatestCost then
    .ok (layout cost salt (digest (Utf8.octets (identifier random)) salt cost))
  else .error (costFault cost)

def target : String := "session_key_issuer"

/-- What is said once a key was issued. -/
def issued : Log.Event := .say .debug target "issued session key" []

end SessionKey
end RowGate
