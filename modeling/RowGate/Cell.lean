import RowGate.Text.Utf8

/-! # JSON cells of a result

A cell of a JSON column is kept as the text that the server sent. The binary form has a
format version in its first octet. Rows that are null or cannot be read are left out;
the others keep their order.
-/
namespace RowGate

/-- The two column types that hold JSON. -/
inductive JsonColumn where
  | plain
  | binary
  deriving DecidableEq, Repr

inductive CellFault where
  | unsupportedVersion (version : Nat)
  | empty
  | notText (fault : Utf8.Fault)
  deriving DecidableEq, Repr

def CellFault.message : CellFault → String
  | .unsupportedVersion version => "unsupported jsonb format version " ++ toString version
  | .empty => "empty jsonb value"
  | .notText fault => fault.message

abbrev Cell := Option Octets

def binaryVersion : UInt8 := 1

def plainText (raw : Octets) : Except CellFault String :=
  match Utf8.text raw with
  | .ok t => .ok t
  | .error f => .error (.notText f)

/-- The text of the octets of a cell. -/
def JsonColumn.text : JsonColumn → Octets → Except CellFault String
  | .plain, raw => plainText raw
  | .binary, [] => .error .empty
  | .binary, v :: rest =>
    if v = binaryVersion then plainText rest else .error (.unsupportedVersion v.toNat)

/-- What is said of a cell that does not hold what is asked of its column. -/
def unreadableColumn (column : Nat) : String := "error deserializing column " ++ toString column

/-- The first column of a result, as far as JSON is read from it. -/
inductive FirstColumn where
  | json (type : JsonColumn)
  | otherType
  | absent
  deriving DecidableEq, Repr

/-- The text of a cell, `none` for a null one. A column of another type gives no cell, not even
a null one. -/
def FirstColumn.read : FirstColumn → Cell → Except String (Option String)
  | .json _, none => .ok none
  | .json type, some raw =>
    match type.text raw with
    | .ok t => .ok (some t)
    | .error _ => .error (unreadableColumn 0)
  | .otherType, _ => .error (unreadableColumn 0)
  | .absent, _ => .error "invalid column `0`"

/-- The text of a cell that must not be null. -/
def readName (column : Nat) : Cell → Except String String
  | none => .error (unreadableColumn column)
  | some raw =>
    match plainText raw with
    | .ok t => .ok t
    | .error _ => .error (unreadableColumn column)

/-- What is said about a row that gives no fragment. -/
inductive SkippedRow where
  | null (index : Nat)
  | unreadable (index : Nat) (reason : String)
  deriving DecidableEq, Repr

/-- Fragments of the rows from number `index` on, and the rows left out. -/
def fragmentsFrom (index : Nat) : List (Except String (Option String)) →
    List String × List SkippedRow
  | [] => ([], [])
  | row :: rest =>
    let (texts, skipped) := fragmentsFrom (index + 1) rest
    match row with
    | .ok (some t) => (t :: texts, skipped)
    | .ok none => (texts, .null index :: skipped)
    | .error e => (texts, .unreadable index e :: skipped)

def fragments (rows : List (Except String (Option String))) : List String × List SkippedRow :=
  fragmentsFrom 0 rows

end RowGate
