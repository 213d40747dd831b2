import RowGate.Json
import RowGate.Log.Event

/-! # Log entries and lines

An event becomes one JSON object on a line of its own. Fields are sorted by name and the
last recording of a name counts. Values of fields whose name speaks of a secret are
replaced before they reach the entry.
-/
namespace RowGate.Log

def redacted : String := "[redacted]"

def sensitiveMarkers : List (List Char) :=
  ["password".toList, "secret".toList, "ciphertext".toList, "token".toList]

/-- A name that holds one of the markers, in ASCII letters of any case. -/
def isSensitive (name : String) : Bool :=
  sensitiveMarkers.any (Text.occursIn · (Text.lowerAscii name.toList))

/-- Puts a value under its name in the order of names; an earlier one is replaced. -/
def insertField (name : String) (value : Json) : List (String × Json) → List (String × Json)
  | [] => [(name, value)]
  | (k, v) :: rest =>
    if name = k then (name, value) :: rest
    else if name < k then (name, value) :: (k, v) :: rest
    else (k, v) :: insertField name value rest

def Recorded.json : Recorded → Json
  | .shown s => .string s
  | .text s => .string s
  | .fault s => .string s
  | .signed i => .ofInt i
  | .unsigned n => .ofNat n
  | .flag b => .boolean b
  | .double (.finite s m e) => .number (.double (.finite s m e))
  | .double d => .string (Decimal.doubleText d)

/-- Texts recorded under the name of the message are the message. -/
def Recorded.message? : Recorded → Option String
  | .shown s => some s
  | .text s => some s
  | _ => none

structure Collected where
  message : Option String := none
  fields : List (String × Json) := []

def collect (c : Collected) (f : Field) : Collected :=
  match if f.1 = messageName then f.2.message? else none with
  | some m => { c with message := some m }
  | none =>
    let value := if isSensitive f.1 then .string redacted else f.2.json
    { c with fields := insertField f.1 value c.fields }

def collected (fs : List Field) : Collected := fs.foldl collect {}

/-- What is known about an event besides its fields. -/
structure Origin where
  timestamp : String
  service : String
  pid : Nat
  span : Option String := none
  file : Option String := none
  line : Option Nat := none

structure Entry where
  origin : Origin
  level : Level
  target : String
  message : String
  fields : List (String × Json)

def Entry.ofEvent (o : Origin) (e : Event) : Entry :=
  let c := collected e.fields
  ⟨o, e.level, e.target, c.message.getD "", c.fields⟩

def optional (name : String) (v : Option Json) : List (String × Json) :=
  match v with
  | some v => [(name, v)]
  | none => []

def Entry.json (e : Entry) : Json :=
  .object
    ([("timestamp", .string e.origin.timestamp), ("level", .string e.level.name),
      ("service", .string e.origin.service), ("pid", .ofNat e.origin.pid),
      ("target", .string e.target), ("message", .string e.message)] ++
     (if e.fields.isEmpty then [] else [("fields", .object e.fields)]) ++
     optional "span" (e.origin.span.map .string) ++
     optional "file" (e.origin.file.map .string) ++
     optional "line" (e.origin.line.map .ofNat))

/-- The pieces in which a line goes to its file: the entry, then the end of the line. -/
def Entry.pieces (e : Entry) : List (List Char) := [e.json.chars, ['\n']]

def Entry.line (e : Entry) : List Char := e.pieces.flatten

end RowGate.Log
