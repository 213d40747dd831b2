import RowGate.Cipher.Words

/-! # Blowfish

A block cipher on pairs of words whose tables start out as the binary digits of the
fraction of pi and are then mixed with a key, and with a salt if there is one.
-/
namespace RowGate.Cipher.Blowfish

/-- Terms of the arctangent series of `1 / x`, scaled; `power` is the scaled power of `1 / x`. -/
def arctanTerms (x : Nat) : (fuel : Nat) → (power : Nat) → (k : Nat) → Int → Int
  | 0, _, _, sum => sum
  | fuel + 1, power, k, sum =>
    if power = 0 then sum
    else
      let term : Int := (power / (2 * k + 1) : Nat)
      arctanTerms x fuel (power / (x * x)) (k + 1) (if k % 2 = 0 then sum + term else sum - term)

def arctanInverse (x scale : Nat) : Int := arctanTerms x (Nat.log2 scale + 2) (scale / x) 0 0

/-- Words of the two tables together. -/
def wordCount : Nat := 18 + 1024

/-- The fraction of pi to as many bits as the tables have, with 64 bits to spare below. -/
def piFraction : Nat :=
  let scale := Nat.pow 2 (32 * wordCount + 64)
  (16 * arctanInverse 5 scale - 4 * arctanInverse 239 scale).toNat % scale / Nat.pow 2 64

def piWords : Array UInt32 :=
  let word (i : Nat) : UInt32 :=
    UInt32.ofNat (piFraction / Nat.pow 2 (32 * (wordCount - 1 - i)) % Nat.pow 2 32)
  ((List.range wordCount).map word).toArray

structure Tables where
  rounds : Array UInt32
  boxes : Array UInt32

def initial : Tables := ⟨piWords.extract 0 18, piWords.extract 18 wordCount⟩

def box (t : Tables) (i : Nat) (x : UInt32) : UInt32 := t.boxes.getD (256 * i + x.toNat) 0

def scramble (t : Tables) (x : UInt32) : UInt32 :=
  ((box t 0 (x >>> 24) + box t 1 ((x >>> 16) &&& 0xff)) ^^^ box t 2 ((x >>> 8) &&& 0xff)) +
    box t 3 (x &&& 0xff)

/-- Rounds `i` to 15, the halves changing places after each. -/
def feistel (t : Tables) : (count : Nat) → (i : Nat) → UInt32 → UInt32 → UInt32 × UInt32
  | 0, _, l, r => (l, r)
  | count + 1, i, l, r =>
    let l := l ^^^ t.rounds.getD i 0
    feistel t count (i + 1) (r ^^^ scramble t l) l

def encipher (t : Tables) (l r : UInt32) : UInt32 × UInt32 :=
  let (l, r) := feistel t 16 0 l r
  (r ^^^ t.rounds.getD 17 0, l ^^^ t.rounds.getD 16 0)

/-- Word `i` of a key that is repeated without end. -/
def cyclicWord (key : Array UInt8) (i : Nat) : UInt32 :=
  (List.range 4).foldl
    (fun w j => (w <<< 8) ||| (key.getD ((4 * i + j) % key.size) 0).toUInt32) 0

/-- Chained encipherment fills the round table, two words at a time from word `i` on. -/
def fillRounds (salt : Array UInt32) : (count : Nat) → (i : Nat) → Tables → UInt32 → UInt32 →
    Tables × UInt32 × UInt32
  | 0, _, t, l, r => (t, l, r)
  | count + 1, i, t, l, r =>
    let (l, r) := encipher t (l ^^^ salt.getD (i % 4) 0) (r ^^^ salt.getD ((i + 1) % 4) 0)
    let t := { t with rounds := (t.rounds.setIfInBounds i l).setIfInBounds (i + 1) r }
    fillRounds salt count (i + 2) t l r

/-- Then the boxes; the salt goes on where the round table left it. -/
def fillBoxes (salt : Array UInt32) : (count : Nat) → (i : Nat) → Tables → UInt32 → UInt32 →
    Tables
  | 0, _, t, _, _ => t
  | count + 1, i, t, l, r =>
    let (l, r) := encipher t (l ^^^ salt.getD ((i + 2) % 4) 0) (r ^^^ salt.getD ((i + 3) % 4) 0)
    let ⟨rounds, boxes⟩ := t
    fillBoxes salt count (i + 2) ⟨rounds, (boxes.setIfInBounds i l).setIfInBounds (i + 1) r⟩ l r

/-- Mixes a key, and a salt of four words, into the tables. -/
def mix (t : Tables) (salt : Array UInt32) (key : Array UInt8) : Tables :=
  let rounds := (List.range 18).foldl
    (fun p i => p.setIfInBounds i (p.getD i 0 ^^^ cyclicWord key i)) t.rounds
  let (t, l, r) := fillRounds salt 9 0 { t with rounds := rounds } 0 0
  fillBoxes salt 512 0 t l r

end RowGate.Cipher.Blowfish
