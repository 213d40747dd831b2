import RowGate.Decimal.Reading
import RowGate.Log.Event
import RowGate.Log.Pattern
import RowGate.Text.Split

/-! # Log filters

A filter is a list of directives. Each sets a threshold for events by a beginning of their
target, by a field that they have, or by both; one for a span, or for the value of a field,
speaks about events inside of spans only. Of the directives that speak about an event the one
with the longest target decides, then one with a field, then the last one given. A text that
is no filter is passed over, but one that would have to be cut inside a character is not.
-/
namespace RowGate.Log

/-- The least severe level that passes; none when nothing does. -/
abbrev Threshold := Option Level

structure FieldTest where
  name : String
  value : Option String := none
  deriving DecidableEq

structure Directive where
  target : Option String := none
  span : Option String := none
  field : Option FieldTest := none
  threshold : Threshold := some .trace
  deriving DecidableEq

abbrev Filter := List Directive

namespace Threshold

def passes (t : Threshold) (l : Level) : Bool :=
  match t with
  | none => false
  | some bound => l.severity ≤ bound.severity

def words : List (String × Threshold) :=
  [("error", some .error), ("warn", some .warn), ("info", some .info), ("debug", some .debug),
   ("trace", some .trace), ("off", none)]

def numbers : List Threshold :=
  [none, some .error, some .warn, some .info, some .debug, some .trace]

/-- A natural, with or without a plus sign in front. -/
def natural? : List Char → Option Nat
  | '+' :: digits => Digits.natural? digits
  | digits => Digits.natural? digits

/-- A threshold as a word in any case or as a number up to five. -/
def ofText? (s : List Char) : Option Threshold :=
  match natural? s with
  | some n => numbers[n]?
  | none => words.lookup (String.ofList (Text.lowerAscii s))

end Threshold

/-- A value to compare with is a number or a pattern. -/
def isFieldValue : List Char → Bool
  | '+' :: rest => Decimal.isUnsigned rest
  | s => isPattern s

/-- What is wrong with a directive: it is none, or a part of it begins or ends inside a
character. -/
inductive DirectiveFault where
  | malformed
  | torn
  deriving DecidableEq, Repr

/-- The name of a field, and after an equals sign its value; what a second one brings is
left out. -/
def FieldTest.ofText? (s : List Char) : Option FieldTest :=
  match Text.split '=' s with
  | name :: value :: _ =>
    if isFieldValue value then some ⟨String.ofList name, some (String.ofList value)⟩ else none
  | _ => some ⟨String.ofList s, none⟩

namespace Directive

/-- Where the reading of a directive stands, and the octet at which the present part begins. -/
inductive Place where
  | start
  | name
  | span (start : Nat)
  | field (start : Nat)
  | fieldDone
  | spanDone
  | level (start : Nat)
  deriving DecidableEq

structure Reader where
  place : Place := .start
  directive : Directive := {}

def isNameStart (c : Char) : Bool := c = '-' || c = ':' || c = '_' || Text.isAlphanumeric c

abbrev Reading (α : Type) := Except DirectiveFault α

/-- A part may begin and end before any octet that begins a character, and at the end. -/
def isBoundary (item : Octets) (i : Nat) : Bool :=
  match item[i]? with
  | some b => !Utf8.isTail b
  | none => i == item.length

/-- The text between two octets of an item. An empty part has to lie between characters too. -/
def cut (item : Octets) (start stop : Nat) : Reading (List Char) :=
  if isBoundary item start && isBoundary item stop then
    match Utf8.decode ((item.take stop).drop start) with
    | .ok part => .ok part
    | .error _ => .error .torn
  else .error .torn

def orMalformed {α : Type} : Option α → Reading α
  | some a => .ok a
  | none => .error .malformed

namespace Reader

def toSpan (r : Reader) (name : List Char) : Reader :=
  ⟨.spanDone, { r.directive with span := some (String.ofList name) }⟩

def toTarget (r : Reader) (next : Place) (target : List Char) : Reader :=
  ⟨next, { r.directive with target := some (String.ofList target) }⟩

/-- A span that tests a field may be without a name. -/
def toField (r : Reader) (next : Nat) (name : List Char) : Reader :=
  let span := if name.isEmpty then none else some (String.ofList name)
  ⟨.field next, { r.directive with span := span }⟩

def toTest (r : Reader) (text : List Char) : Reading Reader :=
  if text.isEmpty then .error .malformed
  else (orMalformed (FieldTest.ofText? text)).map fun test =>
    ⟨.fieldDone, { r.directive with field := some test }⟩

/-- Takes one more character, whose first octet is at `i`. -/
def step (item : Octets) (r : Reader) (i : Nat) (c : Char) : Reading Reader :=
  match r.place with
  | .start =>
    if c = '[' then .ok { r with place := .span (i + 1) }
    else if isNameStart c then .ok { r with place := .name }
    else .error .malformed
  | .name =>
    if c = '=' then (cut item 0 i).map (r.toTarget (.level (i + 1)))
    else if c = '[' then (cut item 0 i).map (r.toTarget (.span (i + 1)))
    else .ok r
  | .span start =>
    if c = ']' then (cut item start i).map r.toSpan
    else if c = '\x7b' then (cut item start i).map (r.toField (i + 1))
    else .ok r
  | .field start => if c = '\x7d' then (cut item start i).bind r.toTest else .ok r
  | .fieldDone => if c = ']' then .ok { r with place := .spanDone } else .error .malformed
  | .spanDone => if c = '=' then .ok { r with place := .level (i + 1) } else .error .malformed
  | .level _ => .ok r

def run (item : Octets) (r : Reader) (i : Nat) : List Char → Reading Reader
  | [] => .ok r
  | c :: rest => (r.step item i c).bind (fun r => r.run item (i + (Utf8.encode [c]).length) rest)

/-- A name alone is a threshold if it can be one, or else a target. -/
def finish (item : Octets) (r : Reader) : Reading Directive :=
  match r.place with
  | .name => (cut item 0 item.length).map fun name =>
    match Threshold.ofText? name with
    | some t => { r.directive with threshold := t }
    | none => { r.directive with target := some (String.ofList name) }
  | .level start => (cut item start item.length).bind fun level =>
    if level.isEmpty then .ok r.directive
    else (orMalformed (Threshold.ofText? level)).map fun t => { r.directive with threshold := t }
  | .spanDone => .ok r.directive
  | _ => .error .malformed

end Reader

/-- Reads an item by its characters between the blanks at its ends; the parts are cut from the
item as it stands. -/
def ofText (item : List Char) : Reading Directive :=
  let octets := Utf8.encode item
  (Reader.run octets {} 0 (Text.trimmed item)).bind (·.finish octets)

/-- A directive that can speak about an event by what the event is. -/
def isStatic (d : Directive) : Bool :=
  d.span.isNone && (match d.field with
    | some test => test.value.isNone
    | none => true)

def isAbout (d : Directive) (e : Event) : Bool :=
  d.isStatic &&
  (match d.target with
    | some t => t.toList.isPrefixOf e.target.toList
    | none => true) &&
  (match d.field with
    | some test => e.fields.any (·.1 == test.name)
    | none => true)

def targetSize (d : Directive) : Nat :=
  match d.target with
  | some t => (Utf8.octets t).length + 1
  | none => 0

def fieldName (d : Directive) : Option String := d.field.map (·.name)

/-- A longer target goes before a shorter one, and a field before none; names of fields go in
the order of their characters, the greatest first. -/
def yields (d e : Directive) : Bool :=
  d.targetSize < e.targetSize ||
    (d.targetSize == e.targetSize &&
      match d.fieldName, e.fieldName with
      | none, _ => true
      | some _, none => false
      | some a, some b => a ≤ b)

end Directive

namespace Filter
open Directive (isAbout yields)

/-- The filter that a text describes; an empty one lets only errors pass. -/
def parse (s : String) : Except DirectiveFault Filter :=
  match (Text.split ',' s.toList).filter (fun item => !item.isEmpty) with
  | [] => .ok [{ threshold := some .error }]
  | items => items.mapM Directive.ofText

def ofLevel (l : Level) : Filter := [{ threshold := some l }]

/-- The directive that decides about an event. -/
def decisive? (f : Filter) (e : Event) : Option Directive :=
  (f.filter (·.isAbout e)).foldl (fun best d =>
    match best with
    | some b => if b.yields d then some d else some b
    | none => some d) none

def admits (f : Filter) (e : Event) : Bool :=
  match f.decisive? e with
  | some d => d.threshold.passes e.level
  | none => false

/-- The filter of a run: the one in the environment, or else a level. There is none where the
first fault of the text is a torn part. -/
def choose (text : Option String) (level : Level) : Option Filter :=
  match text.map parse with
  | some (.ok f) => some f
  | some (.error .torn) => none
  | some (.error .malformed) => some (ofLevel level)
  | none => some (ofLevel level)

end Filter
end RowGate.Log
