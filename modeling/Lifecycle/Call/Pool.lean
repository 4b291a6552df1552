import Lifecycle.Request

/- Connections, one per endpoint.

   The first call of an endpoint opens its connection; later calls share it. A call
   is never repeated, and its response is waited for. -/
namespace Lifecycle

/-- Open connections, by endpoint in the order of their first use. -/
structure Pool where
  region : Text
  endpoints : List Text

/-- One call as it is handed to a connection. -/
structure PooledCall where
  connection : Nat
  region : Text
  maxAttempts : Nat
  functionName : Text
  invocationType : Text
  payload : List UInt8

namespace Pool

def empty (region : Text) : Pool := ⟨region, []⟩

/-- The connection of an endpoint, opened if need be. -/
def connection (p : Pool) (endpoint : Text) : Nat × Pool :=
  match p.endpoints.findIdx? (· == endpoint) with
  | some i => (i, p)
  | none => (p.endpoints.length, { p with endpoints := p.endpoints ++ [endpoint] })

/-- Hand a request to the connection of its target. -/
def send (p : Pool) (target : Target) (request : Request) : PooledCall × Pool :=
  let (i, p) := p.connection target.endpoint
  (⟨i, p.region, 1, target.functionIdentity, "RequestResponse", request.bytes⟩, p)

end Pool

end Lifecycle
