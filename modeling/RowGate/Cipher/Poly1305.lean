import RowGate.Cipher.Words

/-! # Poly1305

A tag of 16 octets for a message under a one-time key: the blocks of the message are the
coefficients of a polynomial over the integers modulo 2^130 - 5, whose value at the first
half of the key is masked by the second half.
-/
namespace RowGate.Cipher.Poly1305

def modulus : Nat := Nat.pow 2 130 - 5

/-- Bits of the point that are kept. -/
def mask : Nat := 0x0ffffffc0ffffffc0ffffffc0fffffff

def coefficient (block : Octets) : Nat := littleEndian block + Nat.pow 256 block.length

def accumulate (point : Nat) (blocks : List Octets) : Nat :=
  blocks.foldl (fun acc b => (acc + coefficient b) * point % modulus) 0

def tag (key message : Octets) : Octets :=
  let point := littleEndian (key.take 16) &&& mask
  let blind := littleEndian (key.drop 16)
  toLittleEndian 16 (accumulate point (blocks 16 message) + blind)

@[simp] theorem length_tag (key message : Octets) : (tag key message).length = 16 := by
  simp [tag]

end RowGate.Cipher.Poly1305
