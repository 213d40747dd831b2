import RowGate.Json.Reader
import RowGate.Width

/-! # Records as JSON documents

A schema lists the members of a record in order, each with its kind and possibly a
default. A document for it is an object with the members in any order, other members
being passed over, or an array of the values in the order of the schema. Reading stops
at the first problem; members that are missing are looked for at the end of the object.
-/
namespace RowGate
open Json

/-- What a member may hold. -/
inductive Kind where
  | text
  | flag
  | word (bits : Nat)
  | texts
  | optional (kind : Kind)

namespace Kind

@[reducible] def Carrier : Kind → Type
  | text => String
  | flag => Bool
  | word bits => Word bits
  | texts => List String
  | optional k => Option k.Carrier

def expected : Kind → String
  | text => "a string"
  | flag => "a boolean"
  | word bits => "u" ++ toString bits
  | texts => "a sequence"
  | optional k => k.expected

def json : (k : Kind) → k.Carrier → Json
  | text, s => .string s
  | flag, b => .boolean b
  | word _, n => .number (.natural n.val)
  | texts, xs => .array (xs.map .string)
  | optional k, o => match o with
    | none => .null
    | some v => k.json v

end Kind

namespace Record

/-- Refuses the value that stands here. It is read first if it has a text of its own. -/
def mismatch {β : Type} (expected : String) : Octets → Except Fault (β × Octets)
  | [] => .error .ended
  | b :: rest =>
    match letter b with
    | 'n' => do
      let _ ← word ['u', 'l', 'l'] rest
      .error (.wrongType .null expected)
    | 't' => do
      let _ ← word ['r', 'u', 'e'] rest
      .error (.wrongType (.boolean true) expected)
    | 'f' => do
      let _ ← word ['a', 'l', 's', 'e'] rest
      .error (.wrongType (.boolean false) expected)
    | '-' => do
      let (n, _) ← numeral true rest
      .error (.wrongType (.number n) expected)
    | '"' => do
      let (t, _) ← stringText rest
      .error (.wrongType (.string t) expected)
    | '[' => .error (.wrongType .sequence expected)
    | '\x7b' => .error (.wrongType .map expected)
    | _ =>
      if isDigit b then do
        let (n, _) ← numeral false (b :: rest)
        .error (.wrongType (.number n) expected)
      else .error .malformed

/-- The start of the next item of an array, or none before the closing bracket. -/
def nextItem (first : Bool) (s : Octets) : Except Fault (Option Octets) :=
  match skipBlank s with
  | [] => .error .ended
  | b :: rest =>
    if letter b = ']' then .ok none
    else if first then .ok (some (b :: rest))
    else if letter b = ',' then
      match skipBlank rest with
      | [] => .error .ended
      | c :: rest => if letter c = ']' then .error .malformed else .ok (some (c :: rest))
    else .error .malformed

/-- The closing bracket of an array. -/
def closeArray (s : Octets) : Except Fault Octets :=
  match skipBlank s with
  | [] => .error .ended
  | b :: rest => if letter b = ']' then .ok rest else .error .malformed

def readText (s : Octets) : Except Fault (String × Octets) :=
  match skipBlank s with
  | [] => .error .ended
  | b :: rest => if letter b = '"' then stringText rest else mismatch "a string" (b :: rest)

def readFlag (s : Octets) : Except Fault (Bool × Octets) :=
  match skipBlank s with
  | [] => .error .ended
  | b :: rest =>
    match letter b with
    | 't' => (word ['r', 'u', 'e'] rest).map (true, ·)
    | 'f' => (word ['a', 'l', 's', 'e'] rest).map (false, ·)
    | _ => mismatch "a boolean" (b :: rest)

/-- A number as a natural of so many bits. -/
def fitWord (bits : Nat) (expected : String) : Numeral → Except Fault (Word bits)
  | .natural n => if h : n < wordBound bits then .ok ⟨n, h⟩ else .error (.outOfRange n expected)
  | .negative n => .error (.outOfRange (-n) expected)
  | .double d => .error (.wrongType (.number (.double d)) expected)

def readWord (bits : Nat) (expected : String) (s : Octets) : Except Fault (Word bits × Octets) :=
  match skipBlank s with
  | [] => .error .ended
  | b :: rest =>
    if letter b = '-' then do
      let (n, rest) ← numeral true rest
      let w ← fitWord bits expected n
      .ok (w, rest)
    else if isDigit b then do
      let (n, rest) ← numeral false (b :: rest)
      let w ← fitWord bits expected n
      .ok (w, rest)
    else mismatch expected (b :: rest)

/-- Strings up to the closing bracket, which stays. -/
def readItems : (fuel : Nat) → (first : Bool) → Octets → Except Fault (List String × Octets)
  | 0, _, _ => .error .ended
  | fuel + 1, first, s => do
    match ← nextItem first s with
    | none => .ok ([], s)
    | some s => do
      let (t, s) ← readText s
      let (ts, s) ← readItems fuel false s
      .ok (t :: ts, s)

def readTexts (s : Octets) : Except Fault (List String × Octets) :=
  match skipBlank s with
  | [] => .error .ended
  | b :: rest =>
    if letter b = '[' then do
      let (ts, rest) ← readItems (rest.length + 1) true rest
      let rest ← closeArray rest
      .ok (ts, rest)
    else mismatch "a sequence" (b :: rest)

/-- A value of the given kind, with any blanks before it. -/
def readValue : (k : Kind) → Octets → Except Fault (k.Carrier × Octets)
  | .text, s => readText s
  | .flag, s => readFlag s
  | .word bits, s => readWord bits (Kind.word bits).expected s
  | .texts, s => readTexts s
  | .optional k, s =>
    match skipBlank s with
    | b :: rest =>
      if letter b = 'n' then (word ['u', 'l', 'l'] rest).map (none, ·)
      else (readValue k s).map (fun (v, rest) => (some v, rest))
    | [] => .error .ended

end Record

structure Member where
  name : String
  kind : Kind
  default : Option kind.Carrier := none

/-- The values of the members, in order. -/
@[reducible] def Row : List Member → Type
  | [] => Unit
  | m :: ms => m.kind.Carrier × Row ms

/-- The values read so far. -/
@[reducible] def Slots : List Member → Type
  | [] => Unit
  | m :: ms => Option m.kind.Carrier × Slots ms

namespace Slots

def empty : (ms : List Member) → Slots ms
  | [] => ()
  | _ :: ms => (none, empty ms)

/-- Reads the value of a known member into its slot, which must be free; none for an unknown one. -/
def fill : (ms : List Member) → Slots ms → String → Octets →
    Except Fault (Option (Slots ms × Octets))
  | [], _, _, _ => .ok none
  | m :: ms, (slot, slots), name, s =>
    if m.name = name then
      match slot with
      | some _ => .error (.duplicate name)
      | none => do
        let s ← colon s
        let (v, s) ← Record.readValue m.kind s
        .ok (some ((some v, slots), s))
    else do
      match ← fill ms slots name s with
      | none => .ok none
      | some (slots, s) => .ok (some ((slot, slots), s))

/-- The row, with defaults where nothing was read. -/
def finish : (ms : List Member) → Slots ms → Except Fault (Row ms)
  | [], _ => .ok ()
  | m :: ms, (slot, slots) =>
    match slot <|> m.default with
    | none => .error (.missing m.name)
    | some v => do
      let rest ← finish ms slots
      .ok (v, rest)

end Slots

structure Schema where
  name : String
  members : List Member

namespace Schema

/-- Members of an object up to its closing brace, which is read. -/
def readMembers (ms : List Member) : (fuel : Nat) → (first : Bool) → Slots ms → Octets →
    Except Fault (Slots ms × Octets)
  | 0, _, _, _ => .error .ended
  | fuel + 1, first, slots, s =>
    let named (s : Octets) : Except Fault (Slots ms × Octets) :=
      match s with
      | [] => .error .ended
      | q :: rest =>
        if letter q = '"' then do
          let (name, rest) ← stringText rest
          match ← slots.fill ms name rest with
          | some (slots, rest) => readMembers ms fuel false slots rest
          | none => do
            let rest ← colon rest
            let rest ← skipValue rest
            readMembers ms fuel false slots rest
        else .error .malformed
    match skipBlank s with
    | [] => .error .ended
    | b :: rest =>
      if letter b = '\x7d' then .ok (slots, rest)
      else if first then named (b :: rest)
      else if letter b = ',' then named (skipBlank rest)
      else .error .malformed

/-- Values of an array in the order of the members, `index` of them read before. -/
def readRow (total : String) :
    (ms : List Member) → (index : Nat) → Octets → Except Fault (Row ms × Octets)
  | [], _, s => .ok ((), s)
  | m :: ms, index, s => do
    match ← Record.nextItem (index == 0) s with
    | some s => do
      let (v, s) ← Record.readValue m.kind s
      let (rest, s) ← readRow total ms (index + 1) s
      .ok ((v, rest), s)
    | none =>
      match m.default with
      | some v => do
        let (rest, s) ← readRow total ms (index + 1) s
        .ok ((v, rest), s)
      | none => .error (.wrongLength index total)

def expected (c : Schema) : String := "struct " ++ c.name

def read (c : Schema) (s : Octets) : Except Fault (Row c.members × Octets) :=
  match skipBlank s with
  | [] => .error .ended
  | b :: rest =>
    if letter b = '[' then do
      let total := c.expected ++ " with " ++ toString c.members.length ++ " elements"
      let (row, rest) ← readRow total c.members 0 rest
      let rest ← Record.closeArray rest
      .ok (row, rest)
    else if letter b = '\x7b' then do
      let (slots, rest) ← readMembers c.members (rest.length + 1) true (Slots.empty c.members) rest
      let row ← slots.finish c.members
      .ok (row, rest)
    else Record.mismatch c.expected (b :: rest)

/-- The row of a whole document. -/
def decode (c : Schema) (s : Octets) : Except Fault (Row c.members) := finished (c.read s)

def memberValues : (ms : List Member) → Row ms → List (String × Json)
  | [], _ => []
  | m :: ms, (v, rest) => (m.name, m.kind.json v) :: memberValues ms rest

/-- The object document of a row. -/
def json (c : Schema) (row : Row c.members) : Json := .object (memberValues c.members row)

def encode (c : Schema) (row : Row c.members) : String := (c.json row).compact

end Schema
end RowGate
