import RowGate.Cipher.Words

/-! # ChaCha20

A stream of octets from a key, a nonce and a block counter. A message is enciphered, and
deciphered again, by adding the stream to it bit by bit.
-/
namespace RowGate.Cipher.ChaCha20

abbrev Block := Array UInt32

def word (s : Block) (i : Nat) : UInt32 := s.getD i 0

def quarterRound (s : Block) (a b c d : Nat) : Block :=
  let s := s.setIfInBounds a (word s a + word s b)
  let s := s.setIfInBounds d (rotateLeft (word s d ^^^ word s a) 16)
  let s := s.setIfInBounds c (word s c + word s d)
  let s := s.setIfInBounds b (rotateLeft (word s b ^^^ word s c) 12)
  let s := s.setIfInBounds a (word s a + word s b)
  let s := s.setIfInBounds d (rotateLeft (word s d ^^^ word s a) 8)
  let s := s.setIfInBounds c (word s c + word s d)
  s.setIfInBounds b (rotateLeft (word s b ^^^ word s c) 7)

/-- One round over the columns and one over the diagonals. -/
def doubleRound (s : Block) : Block :=
  let s := quarterRound s 0 4 8 12
  let s := quarterRound s 1 5 9 13
  let s := quarterRound s 2 6 10 14
  let s := quarterRound s 3 7 11 15
  let s := quarterRound s 0 5 10 15
  let s := quarterRound s 1 6 11 12
  let s := quarterRound s 2 7 8 13
  quarterRound s 3 4 9 14

def initial (key nonce : Octets) (counter : Nat) : Block :=
  ([0x61707865, 0x3320646e, 0x79622d32, 0x6b206574] ++ wordsLittle key ++
    [UInt32.ofNat counter] ++ wordsLittle nonce).toArray

/-- The 64 octets of the stream at a block number. -/
def block (key nonce : Octets) (counter : Nat) : Octets :=
  let s := initial key nonce counter
  let t := Nat.repeat doubleRound 10 s
  (List.range 16).flatMap (fun i => toLittleEndian 4 (word s i + word t i).toNat)

def stream (key nonce : Octets) (counter : Nat) : (count : Nat) → Octets
  | 0 => []
  | count + 1 => block key nonce counter ++ stream key nonce (counter + 1) count

/-- Adds the stream to a message, from block number one on. -/
def apply (key nonce message : Octets) : Octets :=
  List.zipWith (· ^^^ ·) message (stream key nonce 1 ((message.length + 63) / 64))

theorem length_flatMap_four (f : Nat → Octets) (h : ∀ i, (f i).length = 4) (n : Nat) :
    ((List.range n).flatMap f).length = 4 * n := by
  induction n with
  | zero => rfl
  | succ n ih => rw [List.range_succ, List.flatMap_append, List.length_append, ih]; simp [h]; omega

@[simp] theorem length_block (key nonce : Octets) (counter : Nat) :
    (block key nonce counter).length = 64 := by
  unfold block
  exact length_flatMap_four _ (by simp) 16

@[simp] theorem length_stream (key nonce : Octets) (counter count : Nat) :
    (stream key nonce counter count).length = 64 * count := by
  induction count generalizing counter with
  | zero => rfl
  | succ count ih => simp [stream, ih]; omega

@[simp] theorem length_apply (key nonce message : Octets) :
    (apply key nonce message).length = message.length := by
  simp [apply]; omega

theorem zipWith_xor_cancel : ∀ (m s : Octets), m.length ≤ s.length →
    List.zipWith (· ^^^ ·) (List.zipWith (· ^^^ ·) m s) s = m
  | [], _, _ => by simp
  | _ :: _, [], h => by simp at h
  | a :: m, b :: s, h => by
    simp only [List.zipWith_cons_cons, List.cons.injEq]
    exact ⟨by rw [UInt8.xor_assoc, UInt8.xor_self, UInt8.xor_zero],
      zipWith_xor_cancel m s (by simpa using h)⟩

/-- Enciphering twice gives the message back. -/
theorem apply_apply (key nonce message : Octets) :
    apply key nonce (apply key nonce message) = message := by
  have h : (apply key nonce message).length = message.length := length_apply key nonce message
  rw [apply, h]
  exact zipWith_xor_cancel message _ (by simp; omega)

end RowGate.Cipher.ChaCha20
