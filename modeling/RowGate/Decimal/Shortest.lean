import RowGate.Decimal.Double

/-! # Shortest decimal text of a double

Of the decimals that read back as a given double the text has the fewest digits, and of
those with so few digits the nearest one. Numbers whose leading digit stands between the
fifth decimal place and the sixteenth digit before the point are written positionally,
all others with an exponent; an exponent always has its sign when it is not negative.
-/
namespace RowGate.Decimal

/-- `n * 10 ^ k` for any sign of `k`, as a quotient of naturals. -/
def tens (n : Nat) (k : Int) : Nat × Nat :=
  if 0 ≤ k then (n * Nat.pow 10 k.toNat, 1) else (n, Nat.pow 10 (-k).toNat)

def lessOrEqual (a b : Nat × Nat) : Bool := a.1 * b.2 ≤ b.1 * a.2
def less (a b : Nat × Nat) : Bool := a.1 * b.2 < b.1 * a.2

/-- The distance of two quotients. -/
def distance (a b : Nat × Nat) : Nat × Nat :=
  let x := a.1 * b.2
  let y := b.1 * a.2
  (if x ≤ y then y - x else x - y, a.2 * b.2)

/-- The reals that round to `m * 2 ^ e`; the ends belong to it when `m` is even. -/
structure Interval where
  low : Nat × Nat
  high : Nat × Nat
  closed : Bool

/-- Below a power of two the neighbouring double is only half as far away. -/
def rounding (m : Nat) (e : Int) : Interval :=
  let narrow := m = Nat.pow 2 52 ∧ -1074 < e
  ⟨if narrow then Double.scale (4 * m - 1) 4 e else Double.scale (2 * m - 1) 2 e,
   Double.scale (2 * m + 1) 2 e, m % 2 = 0⟩

def Interval.contains (i : Interval) (x : Nat × Nat) : Bool :=
  if i.closed then lessOrEqual i.low x && lessOrEqual x i.high else less i.low x && less x i.high

/-- The least `p` with `x < 10 ^ p`, found upward from a lower bound. -/
def magnitude (x : Nat × Nat) : (fuel : Nat) → Int → Int
  | 0, p => p
  | fuel + 1, p => if less x (tens 1 p) then p else magnitude x fuel (p + 1)

/-- The nearer neighbour of `x` on the grid of step `10 ^ k` that `i` contains. -/
def onGrid (i : Interval) (x : Nat × Nat) (k : Int) : Option Nat :=
  let (num, den) :=
    if 0 ≤ k then (x.1, x.2 * Nat.pow 10 k.toNat) else (x.1 * Nat.pow 10 (-k).toNat, x.2)
  let down := num / den
  let up := down + 1
  let downIn := i.contains (tens down k) && down != 0
  let upIn := i.contains (tens up k)
  if downIn && upIn then
    let below := distance x (tens down k)
    let above := distance x (tens up k)
    if less below above then some down
    else if less above below then some up
    else if down % 2 = 0 then some down else some up
  else if downIn then some down
  else if upIn then some up
  else none

/-- The coarsest grid with a hit, from `digits` significant digits on. -/
def search (i : Interval) (x : Nat × Nat) (p : Int) : (fuel digits : Nat) → Nat × Int
  | 0, digits => (0, p - digits)
  | fuel + 1, digits =>
    match onGrid i x (p - digits) with
    | some n => (n, p - digits)
    | none => search i x p fuel (digits + 1)

/-- Trailing zeros of the digits become part of the power of ten. -/
def strip : (fuel : Nat) → Nat → Int → Nat × Int
  | 0, n, k => (n, k)
  | fuel + 1, n, k => if n % 10 = 0 ∧ n ≠ 0 then strip fuel (n / 10) (k + 1) else (n, k)

/-- Digits and power of ten of the shortest decimal of `m * 2 ^ e`, for positive `m`. -/
def shortest (m : Nat) (e : Int) : Nat × Int :=
  let x := Double.quotient m e
  let p := magnitude x 700 (-330)
  let (n, k) := search (rounding m e) x p 17 1
  strip 20 n k

def signText (negative : Bool) : List Char := if negative then ['-'] else []

/-- Digits `ds` times `10 ^ k`, positional or with an exponent. -/
def layout (ds : List Char) (k : Int) : List Char :=
  let x := k + ds.length - 1
  if -5 ≤ x ∧ x ≤ 15 then
    if 0 ≤ k then ds ++ List.replicate k.toNat '0' ++ ['.', '0']
    else if 0 ≤ x then ds.take (x + 1).toNat ++ '.' :: ds.drop (x + 1).toNat
    else ['0', '.'] ++ List.replicate (-x - 1).toNat '0' ++ ds
  else
    let head := match ds with
      | [] => []
      | [d] => [d]
      | d :: rest => d :: '.' :: rest
    head ++ ['e'] ++
      (if 0 ≤ x then '+' :: Digits.write x.toNat else '-' :: Digits.write (-x).toNat)

def doubleChars : Double → List Char
  | .finite s m e =>
    signText s ++ (if m = 0 then ['0', '.', '0']
      else let (n, k) := shortest m e; layout (Digits.write n) k)
  | .infinite s => signText s ++ ['i', 'n', 'f']
  | .nan => ['N', 'a', 'N']

def doubleText (d : Double) : String := String.ofList (doubleChars d)

end RowGate.Decimal
