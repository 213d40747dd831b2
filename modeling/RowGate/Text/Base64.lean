import RowGate.Text.Utf8

/-! # Base64

Octets as text in the standard alphabet, three octets to four symbols, with padding. Only
what writing produces can be read: padding is required, stands only at the end, and the
bits that the last symbol leaves over are zero.
-/
namespace RowGate.Base64

inductive Fault where
  | symbol (octet : UInt8) (offset : Nat)
  | length (count : Nat)
  | padding
  | lastSymbol (octet : UInt8) (offset : Nat)
  deriving DecidableEq, Repr

def Fault.message : Fault → String
  | .symbol octet offset =>
    "Invalid symbol " ++ toString octet.toNat ++ ", offset " ++ toString offset ++ "."
  | .length count => "Invalid input length: " ++ toString count
  | .padding => "Invalid padding"
  | .lastSymbol octet offset =>
    "Invalid last symbol " ++ toString octet.toNat ++ ", offset " ++ toString offset ++ "."

/-- The symbol for six bits. -/
def symbol (n : Nat) : Char :=
  if n < 26 then Char.ofNat (65 + n)
  else if n < 52 then Char.ofNat (97 + (n - 26))
  else if n < 62 then Char.ofNat (48 + (n - 52))
  else if n = 62 then '+' else '/'

/-- The six bits of a symbol. -/
def value? (b : UInt8) : Option Nat :=
  let n := b.toNat
  if 65 ≤ n ∧ n ≤ 90 then some (n - 65)
  else if 97 ≤ n ∧ n ≤ 122 then some (n - 97 + 26)
  else if 48 ≤ n ∧ n ≤ 57 then some (n - 48 + 52)
  else if n = 43 then some 62
  else if n = 47 then some 63
  else none

def pad : UInt8 := 61

def encode : Octets → List Char
  | [] => []
  | [a] => [symbol (a.toNat / 4), symbol (a.toNat % 4 * 16), '=', '=']
  | [a, b] =>
    [symbol (a.toNat / 4), symbol (a.toNat % 4 * 16 + b.toNat / 16), symbol (b.toNat % 16 * 4), '=']
  | a :: b :: c :: rest =>
    symbol (a.toNat / 4) :: symbol (a.toNat % 4 * 16 + b.toNat / 16) ::
      symbol (b.toNat % 16 * 4 + c.toNat / 64) :: symbol (c.toNat % 64) :: encode rest

/-- A symbol that has to stand at an offset. -/
def value (offset : Nat) (b : UInt8) : Except Fault Nat :=
  match value? b with
  | some v => .ok v
  | none => .error (.symbol b offset)

/-- The three octets of four symbols. -/
def triple (p q r s : Nat) : Octets :=
  [UInt8.ofNat (p * 4 + q / 16), UInt8.ofNat (q % 16 * 16 + r / 4), UInt8.ofNat (r % 4 * 64 + s)]

/-- The symbols of the last group with their values, and the padding behind them. Within the
group, `index` octets stand before; the first padding octet stood at `firstPad`. -/
def lastSymbols (start index : Nat) (firstPad : Option Nat) : Octets →
    Except Fault (List (UInt8 × Nat) × Nat)
  | [] => .ok ([], 0)
  | b :: rest =>
    if b = pad then
      if index < 2 then .error (.symbol pad (start + index))
      else do
        let (symbols, pads) ← lastSymbols start (index + 1) (firstPad <|> some index) rest
        .ok (symbols, pads + 1)
    else
      match firstPad with
      | some i => .error (.symbol pad (start + i))
      | none => do
        let v ← value (start + index) b
        let (symbols, pads) ← lastSymbols start (index + 1) none rest
        .ok ((b, v) :: symbols, pads)

/-- The octets of the last group, which has at most four symbols. -/
def lastGroup (start : Nat) (group : Octets) : Except Fault Octets := do
  let (symbols, pads) ← lastSymbols start 0 none group
  match symbols with
  | [] => if group.isEmpty then .ok [] else .error (.length start)
  | [_] => .error (.length (start + 1))
  | [(_, p), (b, q)] =>
    if (2 + pads) % 4 ≠ 0 then .error .padding
    else if q % 16 ≠ 0 then .error (.lastSymbol b (start + 1))
    else .ok [UInt8.ofNat (p * 4 + q / 16)]
  | [(_, p), (_, q), (b, r)] =>
    if (3 + pads) % 4 ≠ 0 then .error .padding
    else if r % 4 ≠ 0 then .error (.lastSymbol b (start + 2))
    else .ok [UInt8.ofNat (p * 4 + q / 16), UInt8.ofNat (q % 16 * 16 + r / 4)]
  | (_, p) :: (_, q) :: (_, r) :: (_, s) :: _ => .ok (triple p q r s)

/-- Whole groups from an offset on, then the last group. -/
def groups (offset : Nat) : Octets → Except Fault Octets
  | a :: b :: c :: d :: e :: rest => do
    let p ← value offset a
    let q ← value (offset + 1) b
    let r ← value (offset + 2) c
    let s ← value (offset + 3) d
    let more ← groups (offset + 4) (e :: rest)
    .ok (triple p q r s ++ more)
  | last => lastGroup offset last

/-- One octet too many that is no symbol is reported before all else. -/
def decode (s : Octets) : Except Fault Octets :=
  match s.getLast? with
  | none => .ok []
  | some b =>
    if s.length % 4 = 1 ∧ b ≠ pad ∧ (value? b).isNone then .error (.symbol b (s.length - 1))
    else groups 0 s

end RowGate.Base64
