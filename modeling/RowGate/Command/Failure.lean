import RowGate.Session.Store
import RowGate.Settings

/-! # Failures before a command runs

The text of a failure is its summary and then its causes, each on lines of its own; the
causes are numbered if there are several.
-/
namespace RowGate.Command

structure Failure where
  summary : String
  causes : List String := []
  deriving DecidableEq

namespace Failure

def failureCode : Nat := 1

/-- The lines of a cause after the first stand as far in as the first. -/
def indented (lead : List Char) (indent : Nat) (cause : String) : List Char :=
  lead ++ cause.toList.flatMap (fun c =>
    if c = '\n' then '\n' :: List.replicate indent ' ' else [c])

def numbered (n : Nat) (cause : String) : List Char :=
  let digits := Digits.write n
  indented (List.replicate (5 - digits.length) ' ' ++ digits ++ [':', ' ']) 7 cause

def causeLines (causes : List String) : List (List Char) :=
  match causes with
  | [c] => [indented (List.replicate 4 ' ') 4 c]
  | cs => cs.zipIdx.map (fun (c, n) => numbered n c)

def text (f : Failure) : String :=
  let causes := if f.causes.isEmpty then []
    else "\n\nCaused by:".toList ++ (causeLines f.causes).flatMap ('\n' :: ·)
  String.ofList ("Error: ".toList ++ f.summary.toList ++ causes ++ ['\n'])

def ofSettings (f : Settings.Fault) : Failure :=
  match f with
  | .file g => ⟨f.message, [g.message]⟩
  | .document g => ⟨f.message, [g.message]⟩
  | f => ⟨f.message, []⟩

/-- The session store could not be reached. -/
def ofStore (f : StoreFault) : Failure :=
  ⟨"failed to connect to the session store",
   f.message :: match f with
    | .service reason => [reason]
    | _ => []⟩

/-- The session store did not answer in time. -/
def storeTimeout : Failure :=
  ⟨"timed out connecting to the session store", ["deadline has elapsed"]⟩

end Failure
end RowGate.Command
