import RowGate.Decimal.Shortest
import RowGate.Text.Quoted
import RowGate.Text.Utf8

/-! # JSON values and their text

Values keep the order of the members of an object. The compact text has no blanks; the
pretty text has two blanks of indentation for each level. A string is escaped only where
the format demands it: quote, backslash and the control characters below the space.
-/
namespace RowGate

/-- Integers that fit 64 bits stand for themselves; every other number is a double. -/
inductive Numeral where
  | natural (n : Nat)
  | negative (n : Nat)
  | double (d : Double)
  deriving DecidableEq, Repr

inductive Json where
  | null
  | boolean (b : Bool)
  | number (n : Numeral)
  | string (s : String)
  | array (items : List Json)
  | object (members : List (String × Json))

namespace Json

def ofNat (n : Nat) : Json := .number (.natural n)

def ofInt (i : Int) : Json :=
  if 0 ≤ i then .number (.natural i.toNat) else .number (.negative (-i).toNat)

def numeralChars : Numeral → List Char
  | .natural n => Digits.write n
  | .negative n => '-' :: Digits.write n
  | .double d => Decimal.doubleChars d

def escapeChar (c : Char) : List Char :=
  if c = '"' then ['\\', '"']
  else if c = '\\' then ['\\', '\\']
  else if c = '\n' then ['\\', 'n']
  else if c = '\r' then ['\\', 'r']
  else if c = '\t' then ['\\', 't']
  else if c.toNat = 8 then ['\\', 'b']
  else if c.toNat = 12 then ['\\', 'f']
  else if c.toNat < 32 then '\\' :: 'u' :: Text.hexPadded 4 c.toNat
  else [c]

def stringChars (s : String) : List Char := '"' :: (s.toList.flatMap escapeChar ++ ['"'])

def boolChars (b : Bool) : List Char := if b then "true".toList else "false".toList

/-- Pieces with a comma between neighbours. -/
def commaSeparated : List (List Char) → List Char
  | [] => []
  | [x] => x
  | x :: y :: rest => x ++ ',' :: commaSeparated (y :: rest)

mutual
def chars : Json → List Char
  | .null => "null".toList
  | .boolean b => boolChars b
  | .number n => numeralChars n
  | .string s => stringChars s
  | .array items => '[' :: (commaSeparated (itemChars items) ++ [']'])
  | .object members => '\x7b' :: (commaSeparated (memberChars members) ++ ['\x7d'])

def itemChars : List Json → List (List Char)
  | [] => []
  | v :: rest => chars v :: itemChars rest

def memberChars : List (String × Json) → List (List Char)
  | [] => []
  | (k, v) :: rest => (stringChars k ++ ':' :: chars v) :: memberChars rest
end

def indent (depth : Nat) : List Char := '\n' :: List.replicate (2 * depth) ' '

/-- A bracketed group with each piece on a line of its own; an empty group is two brackets. -/
def block (opening closing : Char) (depth : Nat) (pieces : List (List Char)) : List Char :=
  match pieces with
  | [] => [opening, closing]
  | pieces =>
    opening :: (commaSeparated (pieces.map (indent (depth + 1) ++ ·)) ++ indent depth ++ [closing])

mutual
def prettyChars (depth : Nat) : Json → List Char
  | .null => "null".toList
  | .boolean b => boolChars b
  | .number n => numeralChars n
  | .string s => stringChars s
  | .array items => block '[' ']' depth (prettyItems (depth + 1) items)
  | .object members => block '\x7b' '\x7d' depth (prettyMembers (depth + 1) members)

def prettyItems (depth : Nat) : List Json → List (List Char)
  | [] => []
  | v :: rest => prettyChars depth v :: prettyItems depth rest

def prettyMembers (depth : Nat) : List (String × Json) → List (List Char)
  | [] => []
  | (k, v) :: rest =>
    (stringChars k ++ ':' :: ' ' :: prettyChars depth v) :: prettyMembers depth rest
end

def compact (v : Json) : String := String.ofList (chars v)
def pretty (v : Json) : String := String.ofList (prettyChars 0 v)

end Json
end RowGate
