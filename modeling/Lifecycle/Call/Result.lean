import Lifecycle.Report.Fault

/- What a call of a handler comes to.

   A response or an error in its place is what a run reckons with; a fault ends the
   run without an outcome. -/
namespace Lifecycle

inductive CallResult where
  | responded (response : Value)
  | failed (error : CallError)
  | crashed (fault : Fault)

namespace CallResult

/-- A response or the error in its place. -/
def ofExcept : Except CallError Value → CallResult
  | .ok response => .responded response
  | .error e => .failed e

end CallResult

end Lifecycle
