import Lifecycle.Outcome
import Lifecycle.Report.Result

/- What the command line says about a finished run. -/
namespace Lifecycle

/-- A count with its noun, which takes an s unless the count is one. -/
def counted (count : Text) (isOne : Bool) (noun : Text) : Text :=
  count ++ " " ++ noun ++ (if isOne then ([] : Text) else "s")

namespace RunSummary

/-- The number of calls and the token of a run. -/
def line (s : RunSummary) : Text :=
  counted s.invocations.toText (s.invocations.same .one) "invocation" ++
    ", bearer token " ++ s.bearerToken

end RunSummary

namespace RunError

/-- The response or payload that a run was rejected for. -/
def evidence : RunError → Option Text
  | .event e => some (Json.pretty e.raw)
  | .call (.protocol _ raw) => raw
  | _ => none

end RunError

namespace CommandResult

/-- The result of a successful run: its model, the list of models before the single one. -/
def ofSuccess (s : RunSummary) (d : Details) (warnings : Option (List Text)) : CommandResult :=
  let model : Option Value := match d.resourceModels with
    | some items => some (.array items)
    | none => d.resourceModel
  .success (some {
    message := s.action.name ++ " succeeded"
    details := some ([s.line] ++
      (match d.message with | some m => ["Message: " ++ m] | none => []) ++
      (match d.nextToken with | some t => ["Next token: " ++ t] | none => []))
    body := model.map Json.pretty
    warnings := warnings
    suggestions := none })

/-- The result of a run that the handler failed. -/
def ofFailure (s : RunSummary) (code : Text) (message : Option Text) (warnings : Option (List Text)) :
    CommandResult :=
  .failure .handlerFailed {
    message := s.action.name ++ " failed with " ++ code
    details := some ([s.line] ++ (match message with | some m => ["Message: " ++ m] | none => []))
    body := none
    warnings := warnings
    suggestions := none }

/-- The result of a run that used up its budget. -/
def ofExhaustion (s : RunSummary) (bound : Double) (last : InProgressEvent)
    (warnings : Option (List Text)) : CommandResult :=
  .failure .budgetExhausted {
    message := s.action.name ++ " still IN_PROGRESS after " ++
      counted bound.toText (bound.same .one) "re-invocation"
    details := some [s.line, "Last callback context: " ++ Json.compact last.callbackContext]
    body := none
    warnings := warnings
    suggestions := some ["Raise --max-reinvoke or leave it unset to wait for a terminal status"] }

/-- The result of a run that ended in error. -/
def ofRunError (s : RunSummary) (e : RunError) (warnings : Option (List Text)) : CommandResult :=
  .failure .invocationError {
    message := e.summary
    details := some [s.line]
    body := e.evidence
    warnings := warnings
    suggestions := none }

def ofOutcome (o : Outcome) : CommandResult :=
  let warnings := nonempty? (o.summary.warnings.map Warning.message)
  match o.ending with
  | .succeeded d => ofSuccess o.summary d warnings
  | .handlerFailed code message => ofFailure o.summary code message warnings
  | .budgetExhausted bound last => ofExhaustion o.summary bound last warnings
  | .invocationError e => ofRunError o.summary e warnings

end CommandResult

end Lifecycle
