import RowGate.Text.Percent
import RowGate.Text.Split
import RowGate.Width

/-! # Address texts

An address of four octets is written as four numbers between dots; shorter forms, and numbers
in other bases, are understood as well. An address of eight groups is written with colons, and
one run of zero groups may be left out; the number of an interface may follow it.
-/
namespace RowGate.Network

open Text (split)

/-- A part of a dotted address: up to three digits, at most 255, no leading zero. -/
def isOctetText (s : List Char) : Bool :=
  match Digits.natural? s with
  | none => false
  | some n => n ≤ 255 && s == Digits.write n

def isDotted (s : List Char) : Bool :=
  let ps := split '.' s
  ps.length == 4 && ps.all isOctetText

/-- One or more digits of a base. -/
def inBase? (base : Nat) (s : List Char) : Option Nat :=
  if s.isEmpty then none
  else s.foldlM (fun n c => (Text.hexValue? c).bind fun d =>
    if d < base then some (base * n + d) else none) 0

/-- A number in base ten, after a zero in base eight, after `0x` in base sixteen. -/
def number? : List Char → Option Nat
  | '0' :: 'x' :: digits => inBase? 16 digits
  | '0' :: 'X' :: digits => inBase? 16 digits
  | '0' :: digits => if digits.isEmpty then some 0 else inBase? 8 digits
  | digits => inBase? 10 digits

/-- One to four numbers between dots: the last one fills the octets that the others leave. -/
def isNumeric (s : List Char) : Bool :=
  match (split '.' s).mapM number? with
  | none => false
  | some ns =>
    ns.length ≤ 4 && ns.dropLast.all (· ≤ 255) &&
      (ns.getLast?.getD 0) < wordBound (8 * (5 - ns.length))

def isGroup (s : List Char) : Bool := !s.isEmpty && s.length ≤ 4 && s.all Text.isHexDigit

/-- How many 16-bit groups a run of groups stands for; the last may be a dotted address. -/
def groupCount : List (List Char) → Option Nat
  | [] => some 0
  | [g] => if isGroup g then some 1 else if isDotted g then some 2 else none
  | g :: h :: rest => if isGroup g then (groupCount (h :: rest)).map (· + 1) else none

def plainGroupCount (ps : List (List Char)) : Option Nat :=
  if ps.all isGroup then some ps.length else none

/-- The text before and after the first double colon. -/
def splitGap : List Char → Option (List Char × List Char)
  | ':' :: ':' :: rest => some ([], rest)
  | [] => none
  | c :: rest => (splitGap rest).map (fun (a, b) => (c :: a, b))

def runOf (s : List Char) : List (List Char) := if s.isEmpty then [] else split ':' s

/-- Eight groups, or fewer around one double colon. -/
def isColoned (s : List Char) : Bool :=
  match splitGap s with
  | none => groupCount (split ':' s) == some 8
  | some (a, b) =>
    match plainGroupCount (runOf a), groupCount (runOf b) with
    | some m, some n => m + n ≤ 7
    | _, _ => false

/-- Whether what stands behind the percent sign of a coloned address is the number of an
interface; nothing for any other text. -/
def interface? (s : List Char) : Option Bool :=
  match s.span (· != '%') with
  | (address, _ :: digits) =>
    if isColoned address then some ((Digits.natural? digits).any (· < wordBound 32)) else none
  | _ => none

def isAddress (s : List Char) : Bool := isNumeric s || isColoned s || interface? s = some true

end RowGate.Network
