import RowGate.Text.Utf8

/-! # Words and octets

Fixed-width words in both orders of octets, and the cutting of a message into blocks.
-/
namespace RowGate.Cipher

variable {α : Type}

def rotateLeft (x : UInt32) (n : UInt32) : UInt32 := (x <<< n) ||| (x >>> (32 - n))
def rotateRight (x : UInt32) (n : UInt32) : UInt32 := (x >>> n) ||| (x <<< (32 - n))

/-- The value of octets, least significant first. -/
def littleEndian : Octets → Nat
  | [] => 0
  | b :: rest => b.toNat + 256 * littleEndian rest

/-- So many octets of a natural, least significant first. -/
def toLittleEndian : (width : Nat) → Nat → Octets
  | 0, _ => []
  | width + 1, n => UInt8.ofNat (n % 256) :: toLittleEndian width (n / 256)

/-- So many octets of a natural, most significant first. -/
def toBigEndian (width n : Nat) : Octets := (toLittleEndian width n).reverse

/-- The value of octets, most significant first. -/
def bigEndian (b : Octets) : Nat := littleEndian b.reverse

/-- Blocks of a positive size; the last one may be shorter. -/
def chunks (size : Nat) : (fuel : Nat) → List α → List (List α)
  | 0, _ => []
  | _ + 1, [] => []
  | fuel + 1, x :: xs => (x :: xs).take size :: chunks size fuel ((x :: xs).drop size)

def blocks (size : Nat) (s : List α) : List (List α) := chunks size s.length s

def wordsLittle (b : Octets) : List UInt32 :=
  (blocks 4 b).map (fun w => UInt32.ofNat (littleEndian w))

def wordsBig (b : Octets) : List UInt32 := (blocks 4 b).map (fun w => UInt32.ofNat (bigEndian w))

@[simp] theorem length_toLittleEndian (width n : Nat) :
    (toLittleEndian width n).length = width := by
  induction width generalizing n with
  | zero => rfl
  | succ width ih => simp [toLittleEndian, ih]

end RowGate.Cipher
