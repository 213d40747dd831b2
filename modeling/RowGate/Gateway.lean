import RowGate.Catalog
import RowGate.Rejection
import RowGate.Text.Quoted

/-! # Gateways to databases

Why a gateway fails: the attempt to connect was rejected for a reason the caller can
correct, or one of the steps of a connection went wrong.
-/
namespace RowGate

inductive GatewayFault where
  | rejected (why : Rejection)
  | connect (reason : String)
  | tls (reason : String)
  | close (reason : String)
  | query (reason : String)
  deriving DecidableEq, Repr

namespace GatewayFault

def message : GatewayFault → String
  | .rejected why => "Connection rejected: " ++ why.text
  | .connect reason => "Connection error: " ++ reason
  | .tls reason => "TLS error: " ++ reason
  | .close reason => "Close error: " ++ reason
  | .query reason => "Query error: " ++ reason

def detail : GatewayFault → String
  | .rejected why => Text.applied "Classified" why.detail
  | .connect reason => Text.applied "Connect" (Text.quoted reason)
  | .tls reason => Text.applied "Tls" (Text.quoted reason)
  | .close reason => Text.applied "Close" (Text.quoted reason)
  | .query reason => Text.applied "Query" (Text.quoted reason)

/-- A failed attempt to connect, rejected if it is recognised. -/
def ofFailure (f : ConnectFailure) : GatewayFault :=
  match Rejection.ofFailure f with
  | some why => .rejected why
  | none => .connect f.message

end GatewayFault
end RowGate
