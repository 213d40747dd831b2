import RowGate.Json.Scan

/-! # Reading values

One walk over the grammar of values, told by a builder what to make of the words. The
builder of trees gives the value of a document; the builder that keeps nothing passes
over a value of any nesting. Depth is bounded by the number of octets only.
-/
namespace RowGate.Json

/-- What a walk makes of numbers, strings, names and groups. Signs and opening quotes have
been read when a scanner is called. -/
structure Builder (α κ : Type) where
  null : α
  boolean : Bool → α
  number : Bool → Octets → Except Fault (α × Octets)
  string : Octets → Except Fault (α × Octets)
  name : Octets → Except Fault (κ × Octets)
  array : List α → α
  object : List (κ × α) → α

variable {α κ : Type}

mutual
/-- A value, with any blanks before it. -/
def walk (b : Builder α κ) : (fuel : Nat) → Octets → Except Fault (α × Octets)
  | 0, _ => .error .ended
  | fuel + 1, s =>
    match skipBlank s with
    | [] => .error .ended
    | c :: rest =>
      match letter c with
      | 'n' => (word ['u', 'l', 'l'] rest).map (b.null, ·)
      | 't' => (word ['r', 'u', 'e'] rest).map (b.boolean true, ·)
      | 'f' => (word ['a', 'l', 's', 'e'] rest).map (b.boolean false, ·)
      | '-' => b.number true rest
      | '"' => b.string rest
      | '[' =>
        match skipBlank rest with
        | [] => .error .ended
        | d :: inner =>
          if letter d = ']' then .ok (b.array [], inner)
          else do
            let (items, rest) ← walkItems b fuel rest
            .ok (b.array items, rest)
      | '\x7b' =>
        match skipBlank rest with
        | [] => .error .ended
        | d :: inner =>
          if letter d = '\x7d' then .ok (b.object [], inner)
          else do
            let (members, rest) ← walkMembers b fuel rest
            .ok (b.object members, rest)
      | _ => if isDigit c then b.number false (c :: rest) else .error .malformed

/-- The items of an array that is not empty, and its closing bracket. -/
def walkItems (b : Builder α κ) : (fuel : Nat) → Octets → Except Fault (List α × Octets)
  | 0, _ => .error .ended
  | fuel + 1, s => do
    let (item, rest) ← walk b fuel s
    match skipBlank rest with
    | [] => .error .ended
    | c :: rest =>
      if letter c = ']' then .ok ([item], rest)
      else if letter c = ',' then do
        let (items, rest) ← walkItems b fuel rest
        .ok (item :: items, rest)
      else .error .malformed

/-- The members of an object that is not empty, and its closing brace. -/
def walkMembers (b : Builder α κ) : (fuel : Nat) → Octets → Except Fault (List (κ × α) × Octets)
  | 0, _ => .error .ended
  | fuel + 1, s =>
    match skipBlank s with
    | [] => .error .ended
    | q :: rest =>
      if letter q = '"' then do
        let (name, rest) ← b.name rest
        let rest ← colon rest
        let (item, rest) ← walk b fuel rest
        match skipBlank rest with
        | [] => .error .ended
        | c :: rest =>
          if letter c = '\x7d' then .ok ([(name, item)], rest)
          else if letter c = ',' then do
            let (members, rest) ← walkMembers b fuel rest
            .ok ((name, item) :: members, rest)
          else .error .malformed
      else .error .malformed
end

/-- Keeps everything. -/
def trees : Builder Json String where
  null := .null
  boolean := .boolean
  number := fun negative s => do
    let (n, rest) ← numeral negative s
    .ok (.number n, rest)
  string := fun s => do
    let (t, rest) ← stringText s
    .ok (.string t, rest)
  name := stringText
  array := .array
  object := .object

/-- Keeps nothing, and asks of numbers and escapes only that they have the right form. -/
def nothing : Builder Unit Unit where
  null := ()
  boolean := fun _ => ()
  number := fun _ s => (skipNumeral s).map ((), ·)
  string := fun s => (skipString s).map ((), ·)
  name := fun s => (skipString s).map ((), ·)
  array := fun _ => ()
  object := fun _ => ()

/-- Each call of a walk has read an octet or calls one that does. -/
def walkFuel (s : Octets) : Nat := 2 * s.length + 2

/-- Passes over one value. -/
def skipValue (s : Octets) : Except Fault Octets := (walk nothing (walkFuel s) s).map (·.2)

/-- Only blanks may follow a document. -/
def finished {β : Type} (r : Except Fault (β × Octets)) : Except Fault β := do
  let (v, rest) ← r
  if (skipBlank rest).isEmpty then .ok v else .error .malformed

/-- The value of a document. -/
def parse (s : Octets) : Except Fault Json := finished (walk trees (walkFuel s) s)

def parseText (s : String) : Except Fault Json := parse (Utf8.octets s)

end RowGate.Json
