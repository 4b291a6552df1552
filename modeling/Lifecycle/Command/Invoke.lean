import Lifecycle.Operation
import Lifecycle.Report.OfOutcome
import Lifecycle.RequestFile

/- The command that performs an operation. -/
namespace Lifecycle.Command

def describeRejection (path : Text) (e : RequestError) : CommandResult :=
  .misuse { Output.ofMessage e.summary with
    suggestions := some [match e with
      | .invalidAction .. => "Use one of: " ++ Action.nameList
      | .malformedRequest _ => "Make " ++ path ++ " contain a single JSON object"] }

/-- What the command came to: a result, a crash, or nothing if the handler never answers. -/
inductive InvokeResult where
  | result (r : CommandResult)
  | crashed (fault : Fault)
  | unfinished

def describeOperation (path : Text) : OperationResult → InvokeResult
  | .rejected e => .result (describeRejection path e)
  | .finished o => .result (.ofOutcome o)
  | .crashed fault => .crashed fault
  | .unfinished => .unfinished

/-- What is asked of the command. -/
structure InvokeInput where
  action : Text
  path : Text
  target : Target
  budget : Budget

/-- Perform an operation with the body in a file, as far as it was loaded. -/
def invoke (script : Script) (s : Operation.Surroundings) (input : InvokeInput) (file : LoadedFile) :
    Operation.Surroundings × InvokeResult × Option Run :=
  match file with
  | .loaded body =>
    let (s, p) := Operation.perform script s ⟨input.action, body, input.target, input.budget⟩
    (s, describeOperation input.path p.result, p.run)
  | file => (s, .result ((file.failure? input.path).getD (.success none)), none)

end Lifecycle.Command
