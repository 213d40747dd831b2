import RowGate.Cell
import RowGate.Record

/-! # Tables of a database

A table is known by its schema and its name. Only those of the default schema are shown,
in the order of the catalog.
-/
namespace RowGate

structure TableRef where
  schemaName : String
  tableName : String
  deriving DecidableEq

def defaultSchema : String := "public"

namespace TableRef

def schema : Schema where
  name := "TableDescriptor"
  members := [⟨"schemaName", .text, none⟩, ⟨"tableName", .text, none⟩]

def toRow (t : TableRef) : Row schema.members := (t.schemaName, t.tableName, ())

def ofRow : Row schema.members → TableRef
  | (schemaName, tableName, ()) => ⟨schemaName, tableName⟩

@[simp] theorem ofRow_toRow (t : TableRef) : ofRow t.toRow = t := rfl

def decode (s : Octets) : Except Json.Fault TableRef := (schema.decode s).map ofRow

def encode (t : TableRef) : String := schema.encode t.toRow

/-- A row of the catalog: the cells of the schema and of the table. -/
def ofCells : Cell × Cell → Except String TableRef
  | (schemaCell, tableCell) => do
    let schemaName ← readName 0 schemaCell
    let tableName ← readName 1 tableCell
    return ⟨schemaName, tableName⟩

def inDefaultSchema (t : TableRef) : Bool := t.schemaName == defaultSchema

end TableRef

def defaultTables (ts : List TableRef) : List TableRef := ts.filter TableRef.inDefaultSchema

end RowGate
