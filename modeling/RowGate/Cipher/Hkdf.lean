import RowGate.Cipher.Sha256

/-! # Key derivation

A keyed digest of a message, and the expansion of a secret into key octets for one use:
the secret is first condensed under a salt of zeros, then stretched with the label of the
use.
-/
namespace RowGate.Cipher

def blockKey (key : Octets) : Octets :=
  let k := if 64 < key.length then Sha256.digest key else key
  k ++ List.replicate (64 - k.length) 0

/-- The keyed digest of a message. -/
def hmac (key message : Octets) : Octets :=
  let k := blockKey key
  Sha256.digest (k.map (· ^^^ 0x5c) ++ Sha256.digest (k.map (· ^^^ 0x36) ++ message))

/-- `count` rounds of expansion; `last` is the digest of the round before, `index` its number. -/
def expandRounds (key label last : Octets) (index : Nat) : (count : Nat) → Octets
  | 0 => []
  | count + 1 =>
    let next := hmac key (last ++ label ++ [UInt8.ofNat (index + 1)])
    next ++ expandRounds key label next (index + 1) count

/-- `size` key octets from a secret, for the use that the label names. -/
def deriveKey (secret label : Octets) (size : Nat) : Octets :=
  let condensed := hmac (List.replicate 32 0) secret
  (expandRounds condensed label [] 0 ((size + 31) / 32)).take size

end RowGate.Cipher
