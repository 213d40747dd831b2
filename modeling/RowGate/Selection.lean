import RowGate.Record
import RowGate.Text.Blank

/-! # Selections and their SQL

A selection names a table and, if wanted, columns, a predicate and a row limit. Its
statement makes one JSON object of each row, or one JSON array of all rows when columns
are named. Names and the predicate go into the statement as they are given.
-/
namespace RowGate

structure Selection where
  table : String
  columns : List String := []
  predicate : Option String := none
  limit : Option (Word 32) := none
  deriving DecidableEq

namespace Selection

def schema : Schema where
  name := "QuerySpec"
  members :=
    [⟨"tableName", .text, none⟩, ⟨"fields", .texts, some []⟩,
     ⟨"where", .optional .text, some none⟩, ⟨"limit", .optional (.word 32), some none⟩]

def toRow (s : Selection) : Row schema.members := (s.table, s.columns, s.predicate, s.limit, ())

def ofRow : Row schema.members → Selection
  | (table, columns, predicate, limit, ()) => ⟨table, columns, predicate, limit⟩

@[simp] theorem ofRow_toRow (s : Selection) : ofRow s.toRow = s := rfl

def decode (s : Octets) : Except Json.Fault Selection := (schema.decode s).map ofRow

def encode (s : Selection) : String := schema.encode s.toRow

/-- A table name that is blank is missing. -/
def missing (s : Selection) : Option String :=
  if Text.isBlankText s.table then some "tableName" else none

/-- A column under its own name, as an argument pair of an object builder. -/
def columnPair (c : List Char) : List Char := '\'' :: (c ++ ['\'', ',', ' '] ++ c)

def separated (sep : List Char) : List (List Char) → List Char
  | [] => []
  | [x] => x
  | x :: y :: rest => x ++ sep ++ separated sep (y :: rest)

def head (table : List Char) (columns : List (List Char)) : List Char :=
  match columns with
  | [] => "SELECT to_jsonb(".toList ++ table ++ ") FROM ".toList ++ table
  | columns =>
    "SELECT jsonb_agg(jsonb_build_object(".toList ++
      separated [',', ' '] (columns.map columnPair) ++ ")) FROM ".toList ++ table

/-- An empty predicate and a limit of zero ask for nothing. -/
def statement (s : Selection) : List Char :=
  head s.table.toList (s.columns.map String.toList) ++
    (match s.predicate with
      | none => []
      | some p => if p.isEmpty then [] else " WHERE ".toList ++ p.toList) ++
    (match s.limit with
      | none => []
      | some n => if n.val = 0 then [] else " LIMIT ".toList ++ Digits.write n.val)

def sql (s : Selection) : String := String.ofList s.statement

end Selection
end RowGate
