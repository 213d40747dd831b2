import RowGate.Text.Digits

/-! # Double-precision numbers

A finite double is a sign and a dyadic number with at most 53 significant bits. Every
operation forms the exact quotient of two naturals and rounds once, to the nearest
double and to the even one of two that are equally near.
-/
namespace RowGate

/-- `finite s m e` is `m * 2 ^ e` with sign `s`, where `m < 2 ^ 53` and `-1074 ≤ e`. -/
inductive Double where
  | finite (negative : Bool) (mantissa : Nat) (exponent : Int)
  | infinite (negative : Bool)
  | nan
  deriving DecidableEq, Repr

namespace Double

/-- `x * 2 ^ k` as a quotient of naturals, for any sign of `k`. -/
def scale (num den : Nat) (k : Int) : Nat × Nat :=
  if 0 ≤ k then (num * Nat.pow 2 k.toNat, den) else (num, den * Nat.pow 2 (-k).toNat)

/-- A quotient rounded to an integer, halves to the even neighbour. -/
def roundEven (num den : Nat) : Nat :=
  let q := num / den
  let twice := 2 * (num % den)
  if twice < den then q
  else if den < twice then q + 1
  else if q % 2 = 0 then q else q + 1

/-- The exponent whose unit is the distance of doubles around `num / den`. -/
def unitExponent (num den : Nat) : Int :=
  let guess : Int := (Nat.log2 num : Int) - (Nat.log2 den : Int) - 52
  let (n, d) := scale num den (-guess)
  let e := if n < d * Nat.pow 2 52 then guess - 1 else guess
  max e (-1074)

/-- The double nearest to `num / den`. -/
def ofQuotient (negative : Bool) (num den : Nat) : Double :=
  if num = 0 then .finite negative 0 0
  else
    let e := unitExponent num den
    let (n, d) := scale num den (-e)
    let m := roundEven n d
    let (m, e) := if m = Nat.pow 2 53 then (Nat.pow 2 52, e + 1) else (m, e)
    if 971 < e then .infinite negative else .finite negative m e

/-- The exact value of `m * 2 ^ e` as a quotient of naturals. -/
def quotient (m : Nat) (e : Int) : Nat × Nat := scale m 1 e

def ofNat (n : Nat) : Double := ofQuotient false n 1

/-- The double nearest to ten to the power `k`. -/
def powTen (k : Nat) : Double := ofNat (Nat.pow 10 k)

def isZero : Double → Bool
  | .finite _ m _ => m == 0
  | _ => false

def isInfinite : Double → Bool
  | .infinite _ => true
  | _ => false

/-- The product of two non-negative doubles. -/
def mul : Double → Double → Double
  | .finite _ m e, .finite _ n f =>
    let (a, b) := quotient m e
    let (c, d) := quotient n f
    ofQuotient false (a * c) (b * d)
  | .nan, _ => .nan
  | _, .nan => .nan
  | _, _ => .infinite false

/-- The quotient of a non-negative double by a positive finite one. -/
def div : Double → Double → Double
  | .finite _ m e, .finite _ n f =>
    let (a, b) := quotient m e
    let (c, d) := quotient n f
    ofQuotient false (a * d) (b * c)
  | .nan, _ => .nan
  | _, .nan => .nan
  | .infinite s, _ => .infinite s
  | .finite .., .infinite _ => .finite false 0 0

def withSign (negative : Bool) : Double → Double
  | .finite _ m e => .finite negative m e
  | .infinite _ => .infinite negative
  | .nan => .nan

/-- The double nearest to `n * 10 ^ k`. Powers far outside the range are not formed. -/
def ofDecimal (negative : Bool) (n : Nat) (k : Int) : Double :=
  if n = 0 then .finite negative 0 0
  else if 400 ≤ k then .infinite negative
  else if 0 ≤ k then ofQuotient negative (n * Nat.pow 10 k.toNat) 1
  else if k + (Digits.write n).length < -400 then .finite negative 0 0
  else ofQuotient negative n (Nat.pow 10 (-k).toNat)

end Double
end RowGate
