import RowGate.Cipher.ChaCha20
import RowGate.Cipher.Poly1305

/-! # Authenticated encryption

The body of a message is enciphered with the stream from block one on; block zero gives
the one-time key of a tag over the enciphered body and its length. Opening recomputes
the tag and refuses every body whose tag differs.
-/
namespace RowGate.Cipher.Aead

def tagSize : Nat := 16

/-- Messages of so many blocks or more would exhaust the block counter. -/
def blockLimit : Nat := Nat.pow 2 32 - 1

def tooLong (message : Octets) : Bool := blockLimit ≤ message.length / 64

/-- Zeros up to a multiple of 16 octets. -/
def filler (length : Nat) : Octets := List.replicate ((16 - length % 16) % 16) 0

def tagOf (key nonce body : Octets) : Octets :=
  Poly1305.tag ((ChaCha20.block key nonce 0).take 32)
    (body ++ filler body.length ++ toLittleEndian 8 0 ++ toLittleEndian 8 body.length)

/-- The enciphered message followed by its tag. -/
def protect (key nonce message : Octets) : Option Octets :=
  if tooLong message then none
  else
    let body := ChaCha20.apply key nonce message
    some (body ++ tagOf key nonce body)

/-- The message whose sealed form this is. -/
def recover (key nonce sealed : Octets) : Option Octets :=
  if sealed.length < tagSize then none
  else
    let body := sealed.take (sealed.length - tagSize)
    if tooLong body then none
    else if tagOf key nonce body = sealed.drop (sealed.length - tagSize) then
      some (ChaCha20.apply key nonce body)
    else none

end RowGate.Cipher.Aead
