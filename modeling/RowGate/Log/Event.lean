import RowGate.Decimal.Double
import RowGate.Text.Blank
import RowGate.Text.Lowercase

/-! # Log events

What the program has to say at one point of a run: a level, the part that speaks, and
named values, the message being one of them.
-/
namespace RowGate.Log

inductive Level where
  | trace
  | debug
  | info
  | warn
  | error
  deriving DecidableEq, Repr

namespace Level

def name : Level → String
  | .trace => "TRACE"
  | .debug => "DEBUG"
  | .info => "INFO"
  | .warn => "WARN"
  | .error => "ERROR"

def severity : Level → Nat
  | .error => 1
  | .warn => 2
  | .info => 3
  | .debug => 4
  | .trace => 5

/-- The level a word asks for; words that name none ask for `info`. -/
def ofWord (word : List Char) : Level :=
  if word = "trace".toList then .trace
  else if word = "debug".toList then .debug
  else if word = "warn".toList ∨ word = "warning".toList then .warn
  else if word = "error".toList then .error
  else .info

/-- Blanks around a word and its case do not matter. -/
def ofText (s : String) : Level := ofWord (Text.lower (Text.trimmed s.toList))

end Level

/-- How a value was recorded, and what of it. -/
inductive Recorded where
  | shown (s : String)
  | text (s : String)
  | fault (s : String)
  | signed (i : Int)
  | unsigned (n : Nat)
  | flag (b : Bool)
  | double (d : Double)
  deriving DecidableEq, Repr

abbrev Field := String × Recorded

structure Event where
  level : Level
  target : String
  fields : List Field
  deriving DecidableEq

/-- The name under which the message of an event is recorded. -/
def messageName : String := "message"

def Event.say (level : Level) (target message : String) (fields : List Field) : Event :=
  ⟨level, target, (messageName, .shown message) :: fields⟩

end RowGate.Log
