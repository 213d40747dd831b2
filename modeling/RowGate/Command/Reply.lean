import RowGate.Json
import RowGate.Service.Fault

/-! # Replies

What a command prints, which is one JSON document, and how the program ends.
-/
namespace RowGate.Command

structure Reply where
  body : Json
  code : Nat

namespace Reply

def callersFaultCode : Nat := 2
def internalFaultCode : Nat := 1

def ok (body : Json) : Reply := ⟨body, 0⟩

def one (name : String) (value : Json) : Reply := ok (.object [(name, value)])

def message (text : String) : Reply := one "message" (.string text)

def failure (details : Bool) (f : ServiceFault) : Reply :=
  ⟨.object [("message", .string (f.shown details))],
   if f.isCallers then callersFaultCode else internalFaultCode⟩

def text (r : Reply) : String := r.body.pretty ++ "\n"

end Reply
end RowGate.Command
