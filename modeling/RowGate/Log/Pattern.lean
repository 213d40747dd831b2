import RowGate.Log.Pattern.Class
import RowGate.Text.Alphanumeric

/-! # Patterns

Which texts are patterns for the values of fields. A pattern has branches, and a branch has
items, classes and groups, each of which may be repeated, but not a given number of times.
Groups may have names, and flags change the mode up to the end of the group they stand in. A
pattern must not be too deep, counting whatever holds other things.
-/
namespace RowGate.Log.Pattern

/-- Ways of reading that a group may turn on and off. -/
def flags : List Char := ['i', 'm', 's', 'R', 'U', 'u', 'x']

/-- Flags before a minus sign and after it, each at most once. -/
def areFlags (s : List Char) : Bool :=
  let (on, off) := s.span (· != '-')
  let all := on ++ off.drop 1
  all.all flags.contains && all.Nodup && off != ['-']

/-- Whether a flag holds after some flags, if it held or not before. -/
def turned (fs : List Char) (flag : Char) (before : Bool) : Bool :=
  let (on, off) := fs.span (· != '-')
  on.contains flag || (before && !off.contains flag)

def Mode.turn (m : Mode) (fs : List Char) : Mode where
  anyCase := turned fs 'i' m.anyCase
  octets := !turned fs 'u' (!m.octets)
  spaced := turned fs 'x' m.spaced

def isGroupName (s : List Char) : Bool :=
  match s with
  | [] => false
  | c :: rest =>
    (c = '_' || Text.isAlphabetic c) &&
      rest.all (fun c => c = '_' || c = '.' || c = '[' || c = ']' || Text.isAlphanumeric c)

inductive Opening where
  | flags (mode : Mode)
  | group (mode : Mode) (name : Option (List Char))

def named? (m : Mode) (s : List Char) : Option (Opening × List Char) :=
  match s.span (· != '>') with
  | (name, _ :: rest) => if isGroupName name then some (.group m (some name), rest) else none
  | _ => none

/-- What follows an opening bracket. -/
def opening? (m : Mode) (s : List Char) : Option (Opening × List Char) :=
  match m.skip s with
  | '?' :: '<' :: rest => named? m rest
  | '?' :: 'P' :: '<' :: rest => named? m rest
  | '?' :: rest =>
    match rest.span (fun c => c != ':' && c != ')') with
    | (fs, ':' :: rest) => if areFlags fs then some (.group (m.turn fs) none, rest) else none
    | (fs, ')' :: rest) =>
      if areFlags fs && !fs.isEmpty then some (.flags (m.turn fs), rest) else none
    | _ => none
  | rest => some (.group m none, rest)

/-- A branch as far as it has been read: how many things are in it, how deep those before the
last are, and how deep the last is if it can be repeated. -/
structure Branch where
  size : Nat := 0
  depth : Nat := 0
  last : Option Nat := none

namespace Branch

def deepest (b : Branch) : Nat := max b.depth (b.last.getD 0)

def add (b : Branch) (last : Option Nat) : Branch := ⟨b.size + 1, b.deepest, last⟩

def repeated? (b : Branch) : Option Branch := b.last.map fun d => { b with last := some (d + 1) }

def whole (b : Branch) : Nat := if b.size ≤ 1 then b.deepest else b.deepest + 1

end Branch

/-- What stood around a group when it was opened. -/
structure Surrounding where
  mode : Mode
  branch : Branch
  branches : Option Nat

structure Reader where
  mode : Mode := {}
  names : List (List Char) := []
  branch : Branch := {}
  /-- How deep the branches before the present one are, if there are any. -/
  branches : Option Nat := none
  around : List Surrounding := []

namespace Reader

def add (r : Reader) (last : Option Nat) : Reader := { r with branch := r.branch.add last }

def addItem? (r : Reader) (i : Item) : Option Reader :=
  if r.mode.allows i then some (r.add (some 0)) else none

def depth (r : Reader) : Nat :=
  match r.branches with
  | none => r.branch.whole
  | some d => max d r.branch.whole + 1

def divide (r : Reader) : Reader :=
  { r with branch := {}, branches := some (max (r.branches.getD 0) r.branch.whole) }

def open? (r : Reader) : Opening → Option Reader
  | .flags m => some { r.add none with mode := m }
  | .group m name =>
    if name.any r.names.contains then none
    else some
      { mode := m, names := name.toList ++ r.names,
        around := ⟨r.mode, r.branch, r.branches⟩ :: r.around }

def close? (r : Reader) : Option Reader :=
  match r.around with
  | [] => none
  | g :: around =>
    some ⟨g.mode, r.names, g.branch.add (some (r.depth + 1)), g.branches, around⟩

/-- A question mark right after a repetition belongs to it. -/
def afterRepetition : List Char → List Char
  | '?' :: rest => rest
  | s => s

/-- Reads on by one thing, which begins with `c`. -/
def step? (r : Reader) (c : Char) (rest : List Char) : Option (Reader × List Char) :=
  if c = '(' then
    (opening? r.mode rest).bind fun (o, rest) => (r.open? o).map (·, rest)
  else if c = ')' then r.close?.map (·, rest)
  else if c = '|' then some (r.divide, rest)
  else if c = '[' then (class? r.mode rest).map fun (d, rest) => (r.add (some d), rest)
  else if c = '*' || c = '+' || c = '?' then
    r.branch.repeated?.map fun b => ({ r with branch := b }, afterRepetition rest)
  else if c = '\x7b' then none
  else if c = '.' then if r.mode.octets then none else some (r.add (some 0), rest)
  else if c = '^' || c = '$' then some (r.add (some 0), rest)
  else if c = '\\' then
    (escape? r.mode rest).bind fun (i, rest) => (r.addItem? i).map (·, rest)
  else (r.addItem? (.letter c false)).map (·, rest)

def run? (r : Reader) : (fuel : Nat) → List Char → Option Reader
  | 0, _ => none
  | fuel + 1, s =>
    match r.mode.skip s with
    | [] => some r
    | c :: rest => (r.step? c rest).bind fun (r, rest) => r.run? fuel rest

end Reader

/-- Things that may stand one inside of the other. -/
def depthLimit : Nat := 250

end RowGate.Log.Pattern

namespace RowGate.Log
open Pattern (Reader depthLimit)

/-- A text that is a pattern: all groups are closed, and it is not too deep. -/
def isPattern (s : List Char) : Bool :=
  match Reader.run? {} (s.length + 1) s with
  | some r => r.around.isEmpty && r.depth ≤ depthLimit
  | none => false

end RowGate.Log
