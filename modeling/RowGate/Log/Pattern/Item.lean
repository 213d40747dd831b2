import RowGate.Text.Blank
import RowGate.Text.Percent

/-! # Single things of a pattern

A pattern is read in a mode: with or without regard to case, by characters or by octets, and
with blanks and comments passed over or counted. What stands in it is a letter, a condition on
the place, or a kind of character. Only the letters of ASCII are known in both cases, and only
its characters by kind, so these are to be had by octets alone; but an octet that is no
character by itself is never matched.
-/
namespace RowGate.Log.Pattern
open Text (isBlank isHexDigit hexValue?)

structure Mode where
  anyCase : Bool := false
  octets : Bool := false
  spaced : Bool := false
  deriving DecidableEq, Repr

/-- What follows the blanks, and the comments from a number sign to the end of the line. -/
def passOver (comment : Bool) : List Char → List Char
  | [] => []
  | c :: rest =>
    if comment then passOver (c != '\n') rest
    else if isBlank c then passOver false rest
    else if c = '#' then passOver true rest
    else c :: rest

namespace Mode

def skip (m : Mode) (s : List Char) : List Char := if m.spaced then passOver false s else s

/-- The character that comes next. Where blanks are passed over they are looked behind, and so
is one number sign. -/
def ahead? (m : Mode) (s : List Char) : Option Char :=
  if m.spaced then
    match s.dropWhile isBlank with
    | [] => s.head?
    | '#' :: rest => (rest.dropWhile isBlank).head?.or s.head?
    | c :: _ => some c
  else s.head?

end Mode

/-- A letter may have been given by its number in two digits. -/
inductive Item where
  | letter (c : Char) (numbered : Bool)
  | place
  | wordEdge
  | kind (negated : Bool)
  deriving DecidableEq, Repr

/-- The number that so many hexadecimal digits give after `n`. -/
def digits? (m : Mode) : (count n : Nat) → List Char → Option (Nat × List Char)
  | 0, n, s => some (n, s)
  | count + 1, n, s =>
    match m.skip s with
    | c :: rest => (hexValue? c).bind fun v => digits? m count (16 * n + v) rest
    | [] => none

def numbered? (m : Mode) (count : Nat) (s : List Char) : Option (Item × List Char) :=
  (digits? m count 0 s).bind fun (n, rest) =>
    if n.isValidChar then some (.letter (Char.ofNat n) (count == 2), rest) else none

/-- Characters that stand for themselves behind a backslash. -/
def isPlainEscape (c : Char) : Bool := c.toNat < 0x80 && !c.isAlphanum

def controls : List (Char × Char) :=
  [('a', '\x07'), ('f', '\x0c'), ('t', '\t'), ('n', '\n'), ('r', '\r'), ('v', '\x0b')]

/-- What follows a backslash. -/
def escape? (m : Mode) : List Char → Option (Item × List Char)
  | [] => none
  | c :: rest =>
    if c = 'x' then numbered? m 2 rest
    else if c = 'u' then numbered? m 4 rest
    else if c = 'U' then numbered? m 8 rest
    else if c = 'd' || c = 's' || c = 'w' then some (.kind false, rest)
    else if c = 'D' || c = 'S' || c = 'W' then some (.kind true, rest)
    else if c = 'A' || c = 'z' then some (.place, rest)
    else if c = 'b' || c = 'B' || c = '<' || c = '>' then some (.wordEdge, rest)
    else if isPlainEscape c then some (.letter c false, rest)
    else (controls.lookup c).map fun d => (.letter d false, rest)

namespace Mode

/-- Items that a pattern may have. -/
def allows (m : Mode) : Item → Bool
  | .letter c numbered => if m.octets then !numbered || c.toNat < 0x80 else !m.anyCase
  | .place => true
  | .wordEdge => m.octets
  | .kind negated => m.octets && !negated

/-- Items that a class of characters may have. -/
def allowsInClass (m : Mode) : Item → Bool
  | .letter c _ => if m.octets then c.toNat < 0x80 else !m.anyCase
  | .kind negated => m.octets && !negated
  | _ => false

end Mode

end RowGate.Log.Pattern
