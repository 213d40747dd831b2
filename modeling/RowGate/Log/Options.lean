import RowGate.Log.Filter

/-! # How a run keeps its log

The name under which it speaks, what passes, where the lines go, and whether they are shown
as well.
-/
namespace RowGate.Log

structure Options where
  service : String := "pg2json"
  level : Level := .info
  path : Option String := none
  echoed : Bool := false

/-- The variable that holds a filter. -/
def filterVariable : String := "RUST_LOG"

/-- The part of the log that the log itself speaks under. -/
def ownTarget : String := "observability"

/-- What is said first. -/
def opened (path : String) : Event :=
  .say .debug ownTarget "observability initialized" [("log_path", .shown path)]

end RowGate.Log
