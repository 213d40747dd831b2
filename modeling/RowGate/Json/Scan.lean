import RowGate.Json
import RowGate.Width

/-! # Scanning JSON

The words of the format, read from the front of a sequence of octets: blanks, literals,
numbers and strings. Every scanner gives what is left behind the word. A document that
ends too early is told apart from one that has a wrong octet; a well-formed value that
does not suit its place is a fault of its own.
-/
namespace RowGate.Json

/-- What stands where another kind of value was wanted. -/
inductive Found where
  | null
  | boolean (b : Bool)
  | number (n : Numeral)
  | string (s : String)
  | sequence
  | map
  deriving DecidableEq, Repr

inductive Fault where
  | ended
  | malformed
  | wrongType (found : Found) (expected : String)
  | outOfRange (n : Int) (expected : String)
  | missing (field : String)
  | duplicate (field : String)
  | wrongLength (count : Nat) (expected : String)
  deriving DecidableEq, Repr

def Found.text : Found → String
  | .null => "null"
  | .boolean b => "boolean `" ++ (if b then "true" else "false") ++ "`"
  | .number (.natural n) => "integer `" ++ Digits.text n ++ "`"
  | .number (.negative n) => "integer `-" ++ Digits.text n ++ "`"
  | .number (.double d) => "floating point `" ++ Decimal.doubleText d ++ "`"
  | .string s => "string " ++ Text.quoted s
  | .sequence => "sequence"
  | .map => "map"

/-- What is wrong, without the line and the column. Of a text that ends too early or has a wrong
octet this is only which of the two, and not what was wanted there. -/
def Fault.message : Fault → String
  | .ended => "eof"
  | .malformed => "syntax"
  | .wrongType found expected => "invalid type: " ++ found.text ++ ", expected " ++ expected
  | .outOfRange n expected =>
    "invalid value: integer `" ++ toString n ++ "`, expected " ++ expected
  | .missing field => "missing field `" ++ field ++ "`"
  | .duplicate field => "duplicate field `" ++ field ++ "`"
  | .wrongLength count expected =>
    "invalid length " ++ toString count ++ ", expected " ++ expected

def isSpace (b : UInt8) : Bool := b = 0x20 || b = 0x0A || b = 0x09 || b = 0x0D

def skipBlank (s : Octets) : Octets := s.dropWhile isSpace

def isDigit (b : UInt8) : Bool := 0x30 ≤ b && b ≤ 0x39
def digitValue (b : UInt8) : Nat := b.toNat - 0x30

/-- The rest of a literal whose first letter has been read. -/
def word : List Char → Octets → Except Fault Octets
  | [], s => .ok s
  | _ :: _, [] => .error .ended
  | c :: cs, b :: rest => if letter b = c then word cs rest else .error .malformed

/-- A colon between the name and the value of a member. -/
def colon (s : Octets) : Except Fault Octets :=
  match skipBlank s with
  | [] => .error .ended
  | b :: rest => if letter b = ':' then .ok rest else .error .malformed

/-- A power of ten applied to a double; results beyond the range are no numbers. -/
def applyPower : (fuel : Nat) → Double → Int → Except Fault Double
  | 0, d, _ => .ok d
  | fuel + 1, d, k =>
    if k.natAbs ≤ 308 then
      if 0 ≤ k then
        let p := d.mul (.powTen k.toNat)
        if p.isInfinite then .error .malformed else .ok p
      else .ok (d.div (.powTen (-k).toNat))
    else if d.isZero then .ok d
    else if 0 ≤ k then .error .malformed
    else applyPower fuel (d.div (.powTen 308)) (k + 308)

/-- The double of `n * 10 ^ k`, rounded at each operation; three steps down reach zero. -/
def fromParts (negative : Bool) (n : Nat) (k : Int) : Except Fault Numeral :=
  (applyPower 4 (.ofNat n) k).map (fun d => .double (d.withSign negative))

/-- An integer keeps its value when it fits 64 bits; a negative zero does not. -/
def integerNumeral (negative : Bool) (n : Nat) : Numeral :=
  if !negative then .natural n
  else if n = 0 ∨ wordBound 63 < n then .double ((Double.ofNat n).withSign true)
  else .negative n

def skipDigits (s : Octets) : Octets := s.dropWhile isDigit

/-- The digits of an exponent, up to the point where it no longer fits 32 bits. -/
def exponentDigits (negative down : Bool) (n : Nat) (k : Int) (e : Nat) :
    Octets → Except Fault (Numeral × Octets)
  | [] => (fromParts negative n (if down then k - e else k + e)).map (·, [])
  | b :: rest =>
    if isDigit b then
      if 10 * e + digitValue b < wordBound 31 then
        exponentDigits negative down n k (10 * e + digitValue b) rest
      else if n ≠ 0 ∧ !down then .error .malformed
      else .ok (.double (.finite negative 0 0), skipDigits rest)
    else (fromParts negative n (if down then k - e else k + e)).map (·, b :: rest)

/-- What follows the letter of an exponent. -/
def exponent (negative : Bool) (n : Nat) (k : Int) (s : Octets) : Except Fault (Numeral × Octets) :=
  let (down, s) := match s with
    | b :: rest => if letter b = '-' then (true, rest) else if letter b = '+' then (false, rest)
                   else (false, s)
    | [] => (false, s)
  match s with
  | [] => .error .ended
  | b :: rest =>
    if isDigit b then exponentDigits negative down n k (digitValue b) rest else .error .malformed

def isExponentLetter (b : UInt8) : Bool := letter b = 'e' || letter b = 'E'

/-- An exponent, or the end of the number. -/
def scaled (negative : Bool) (n : Nat) (k : Int) (s : Octets) : Except Fault (Numeral × Octets) :=
  match s with
  | b :: rest =>
    if isExponentLetter b then exponent negative n k rest else (fromParts negative n k).map (·, s)
  | [] => (fromParts negative n k).map (·, s)

/-- Digits behind the point: those that no longer fit 64 bits are passed over. -/
def places (negative : Bool) (n : Nat) (k : Int) (any : Bool) :
    Octets → Except Fault (Numeral × Octets)
  | [] => if any then scaled negative n k [] else .error .ended
  | b :: rest =>
    if isDigit b then
      if 10 * n + digitValue b < wordBound 64 then
        places negative (10 * n + digitValue b) (k - 1) true rest
      else scaled negative n k (skipDigits rest)
    else if any then scaled negative n k (b :: rest) else .error .malformed

/-- Digits before the point that no longer fit 64 bits count only as powers of ten. -/
def longInteger (negative : Bool) (n : Nat) (k : Int) : Octets → Except Fault (Numeral × Octets)
  | [] => scaled negative n k []
  | b :: rest =>
    if isDigit b then longInteger negative n (k + 1) rest
    else if letter b = '.' then places negative n k false rest
    else scaled negative n k (b :: rest)

/-- What follows the digits of an integer that fits. -/
def afterInteger (negative : Bool) (n : Nat) (s : Octets) : Except Fault (Numeral × Octets) :=
  match s with
  | [] => .ok (integerNumeral negative n, [])
  | b :: rest =>
    if letter b = '.' then places negative n 0 false rest
    else if isExponentLetter b then exponent negative n 0 rest
    else .ok (integerNumeral negative n, s)

def integerDigits (negative : Bool) (n : Nat) : Octets → Except Fault (Numeral × Octets)
  | [] => afterInteger negative n []
  | b :: rest =>
    if isDigit b then
      if 10 * n + digitValue b < wordBound 64 then
        integerDigits negative (10 * n + digitValue b) rest
      else longInteger negative n 1 rest
    else afterInteger negative n (b :: rest)

/-- A number whose sign has been read. -/
def numeral (negative : Bool) : Octets → Except Fault (Numeral × Octets)
  | [] => .error .ended
  | b :: rest =>
    if letter b = '0' then
      match rest with
      | d :: _ => if isDigit d then .error .malformed else afterInteger negative 0 rest
      | [] => afterInteger negative 0 rest
    else if isDigit b then integerDigits negative (digitValue b) rest
    else .error .malformed

/-- Passes over an exponent whose letter has been read. -/
def skipExponent (s : Octets) : Except Fault Octets :=
  let s := match s with
    | b :: rest => if letter b = '-' ∨ letter b = '+' then rest else s
    | [] => s
  match s with
  | b :: rest => if isDigit b then .ok (skipDigits rest) else .error .malformed
  | [] => .error .malformed

def skipScaled (s : Octets) : Except Fault Octets :=
  match s with
  | b :: rest => if isExponentLetter b then skipExponent rest else .ok s
  | [] => .ok s

/-- Passes over a number of any size whose sign has been read. -/
def skipNumeral (s : Octets) : Except Fault Octets :=
  let tail (s : Octets) : Except Fault Octets :=
    match s with
    | b :: rest =>
      if letter b = '.' then
        match rest with
        | d :: rest => if isDigit d then skipScaled (skipDigits rest) else .error .malformed
        | [] => .error .malformed
      else skipScaled s
    | [] => .ok s
  match s with
  | [] => .error .malformed
  | b :: rest =>
    if letter b = '0' then
      match rest with
      | d :: _ => if isDigit d then .error .malformed else tail rest
      | [] => tail rest
    else if isDigit b then tail (skipDigits rest)
    else .error .malformed

def hexValue (b : UInt8) : Option Nat :=
  if isDigit b then some (digitValue b)
  else if 0x41 ≤ b && b ≤ 0x46 then some (b.toNat - 0x41 + 10)
  else if 0x61 ≤ b && b ≤ 0x66 then some (b.toNat - 0x61 + 10)
  else none

def hex4 (a b c d : UInt8) : Option Nat := do
  let a ← hexValue a
  let b ← hexValue b
  let c ← hexValue c
  let d ← hexValue d
  some (((a * 16 + b) * 16 + c) * 16 + d)

/-- The octet that a one-letter escape stands for. -/
def shortEscape (b : UInt8) : Option UInt8 :=
  match letter b with
  | '"' => some 0x22
  | '\\' => some 0x5C
  | '/' => some 0x2F
  | 'b' => some 0x08
  | 'f' => some 0x0C
  | 'n' => some 0x0A
  | 'r' => some 0x0D
  | 't' => some 0x09
  | _ => none

def isHighSurrogate (n : Nat) : Bool := 0xD800 ≤ n && n ≤ 0xDBFF
def isLowSurrogate (n : Nat) : Bool := 0xDC00 ≤ n && n ≤ 0xDFFF

def pairValue (high low : Nat) : Nat := (high - 0xD800) * 1024 + (low - 0xDC00) + 0x10000

def charOctets (n : Nat) : Octets := String.utf8EncodeChar (Char.ofNat n)

/-- Puts octets in front of a string scanned from what follows. -/
def precede (front : Octets) (r : Except Fault (Octets × Octets)) :
    Except Fault (Octets × Octets) :=
  r.map (fun (body, rest) => (front ++ body, rest))

/-- The octets of a string whose opening quote has been read. Surrogates come in pairs. -/
def stringOctets : Octets → Except Fault (Octets × Octets)
  | [] => .error .ended
  | b :: rest =>
    if letter b = '"' then .ok ([], rest)
    else if letter b = '\\' then
      match rest with
      | [] => .error .ended
      | e :: rest =>
        if letter e = 'u' then
          match rest with
          | h1 :: h2 :: h3 :: h4 :: rest =>
            match hex4 h1 h2 h3 h4 with
            | none => .error .malformed
            | some n =>
              if isLowSurrogate n then .error .malformed
              else if isHighSurrogate n then
                match rest with
                | [] => .error .ended
                | x :: rest =>
                  if letter x = '\\' then
                    match rest with
                    | [] => .error .ended
                    | y :: rest =>
                      if letter y = 'u' then
                        match rest with
                        | l1 :: l2 :: l3 :: l4 :: rest =>
                          match hex4 l1 l2 l3 l4 with
                          | none => .error .malformed
                          | some m =>
                            if isLowSurrogate m then
                              precede (charOctets (pairValue n m)) (stringOctets rest)
                            else .error .malformed
                        | _ => .error .ended
                      else .error .malformed
                  else .error .malformed
              else precede (charOctets n) (stringOctets rest)
          | _ => .error .ended
        else
          match shortEscape e with
          | some x => precede [x] (stringOctets rest)
          | none => .error .malformed
    else if b < 0x20 then .error .malformed
    else precede [b] (stringOctets rest)

/-- The text of a string whose opening quote has been read. -/
def stringText (s : Octets) : Except Fault (String × Octets) := do
  let (body, rest) ← stringOctets s
  match Utf8.text body with
  | .ok t => .ok (t, rest)
  | .error _ => .error .malformed

/-- Passes over a string; what its escapes stand for does not matter. -/
def skipString : Octets → Except Fault Octets
  | [] => .error .ended
  | b :: rest =>
    if letter b = '"' then .ok rest
    else if letter b = '\\' then
      match rest with
      | [] => .error .ended
      | e :: rest =>
        if letter e = 'u' then
          match rest with
          | h1 :: h2 :: h3 :: h4 :: rest =>
            if (hex4 h1 h2 h3 h4).isSome then skipString rest else .error .malformed
          | _ => .error .ended
        else if (shortEscape e).isSome then skipString rest
        else .error .malformed
    else if b < 0x20 then .error .malformed
    else skipString rest

end RowGate.Json
