import RowGate.Duration.Spelled
import RowGate.Service.Fault

/-! # Lifetimes of sessions

The lifetime of a session is a spelled duration, which must not be zero.
-/
namespace RowGate.Service

def zeroLifetime : String := "duration must be positive"

/-- The lifetime that a text spells; blanks around it do not matter. There is no answer where
the reading breaks off. -/
def lifetime (input : String) : Option (Except ServiceFault Duration) :=
  let refused (f : Duration.Spelled.Fault) : Except ServiceFault Duration :=
    .error (.invalidDuration input f.message)
  match Duration.Spelled.nanos (Text.trimmed input.toList) with
  | .error f => if f.isTold then some (refused f) else none
  | .ok n =>
    match Duration.ofNanos? n with
    | none => some (refused .overflow)
    | some d => some (if d.isZero then .error (.invalidDuration input zeroLifetime) else .ok d)

end RowGate.Service
