import RowGate.Log.Pattern.Item

/-! # Classes of characters

A class stands in brackets: letters, ranges, kinds and classes inside of it, with operators
between them. Only by characters can it be turned into its opposite. Its depth counts the
brackets, the operators and the things of which there are several, one inside of the other.
-/
namespace RowGate.Log.Pattern

def classNames : List String :=
  ["alnum", "alpha", "ascii", "blank", "cntrl", "digit", "graph", "lower", "print", "punct",
   "space", "upper", "word", "xdigit"]

/-- A class by its name, between colons and behind a bracket; and whether it is negated. -/
def namedClass? (s : List Char) : Option (Bool × List Char) :=
  match s with
  | ':' :: rest =>
    let negated := rest.head? == some '^'
    let (name, tail) := (if negated then rest.drop 1 else rest).span (· != ':')
    match tail with
    | ':' :: ']' :: tail =>
      if classNames.contains (String.ofList name) then some (negated, tail) else none
    | _ => none
  | _ => none

def Mode.allowsNamed (m : Mode) (negated : Bool) : Bool :=
  if m.octets then !negated else !m.anyCase

def classItem? (m : Mode) : List Char → Option (Item × List Char)
  | [] => none
  | '\\' :: rest => escape? m rest
  | c :: rest => some (.letter c false, rest)

/-- What follows an item of a class, or a range from one letter to another that is no less. -/
def classRange? (m : Mode) (s : List Char) : Option (List Char) :=
  (classItem? m s).bind fun (first, rest) =>
    match m.skip rest with
    | '-' :: rest =>
      if m.ahead? rest = some ']' || m.ahead? rest = some '-' then
        if m.allowsInClass first then some ('-' :: rest) else none
      else (classItem? m (m.skip rest)).bind fun (last, rest) =>
        match first, last with
        | .letter a _, .letter b _ =>
          if a ≤ b && m.allowsInClass first && m.allowsInClass last then some rest else none
        | _, _ => none
    | rest => if m.allowsInClass first then some rest else none

/-- One open bracket: how many things have been read since the last operator and how deep they
are, how deep all before it is, and whether there have been dashes only. -/
structure Part where
  size : Nat := 0
  depth : Nat := 0
  before : Option Nat := none
  opening : Bool := true

namespace Part

def add (p : Part) (depth : Nat) : Part :=
  { p with size := p.size + 1, depth := max p.depth depth, opening := false }

def sinceOperator (p : Part) : Nat := if p.size ≤ 1 then p.depth else p.depth + 1

def whole (p : Part) : Nat :=
  match p.before with
  | none => p.sinceOperator
  | some d => max d p.sinceOperator + 1

def operate (p : Part) : Part := { before := some p.whole, opening := false }

/-- Dashes behind the opening are letters, and so is a closing bracket in front of all. -/
def takesAsLetter (p : Part) (c : Char) : Bool :=
  p.opening && (c = '-' || (c = ']' && p.size = 0))

end Part

/-- What follows the bracket that opens a class. -/
def opened? (m : Mode) (s : List Char) : Option (List Char) :=
  match m.skip s with
  | '^' :: rest => if m.octets then none else some rest
  | rest => some rest

/-- The depth of a class, and what follows it; `outer` are the brackets around the present
one. -/
def classEnd? (m : Mode) :
    (fuel : Nat) → (here : Part) → (outer : List Part) → List Char → Option (Nat × List Char)
  | 0, _, _, _ => none
  | fuel + 1, here, outer, s =>
    match m.skip s with
    | [] => none
    | c :: rest =>
      if here.takesAsLetter c then
        if m.allowsInClass (.letter c false) then
          classEnd? m fuel { here.add 0 with opening := c = '-' } outer rest
        else none
      else if c = '[' then
        match namedClass? rest with
        | some (negated, rest) =>
          if m.allowsNamed negated then classEnd? m fuel (here.add 0) outer rest else none
        | none => (opened? m rest).bind (classEnd? m fuel {} (here :: outer))
      else if c = ']' then
        match outer with
        | [] => some (here.whole + 1, rest)
        | around :: outer => classEnd? m fuel (around.add (here.whole + 1)) outer rest
      else if (c = '&' || c = '-' || c = '~') && rest.head? = some c then
        classEnd? m fuel here.operate outer (rest.drop 1)
      else (classRange? m (c :: rest)).bind (classEnd? m fuel (here.add 0) outer)

/-- The depth of the class behind a bracket, and what follows it. -/
def class? (m : Mode) (s : List Char) : Option (Nat × List Char) :=
  (opened? m s).bind (classEnd? m (s.length + 1) {} [])

end RowGate.Log.Pattern
