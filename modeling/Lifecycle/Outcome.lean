import Lifecycle.Run.State

/- The outcome of a finished run: one value per way of ending, with what every run
   reports about itself. -/
namespace Lifecycle

/-- What every outcome says about its run. -/
structure RunSummary where
  action : Action
  bearerToken : Text
  invocations : Double
  warnings : List Warning

inductive Ending where
  | succeeded (details : Details)
  | handlerFailed (errorCode : Text) (message : Option Text)
  | budgetExhausted (maxReinvoke : Double) (lastEvent : InProgressEvent)
  | invocationError (error : RunError)

structure Outcome where
  summary : RunSummary
  ending : Ending

namespace Outcome

/-- The bound that an exhausted run used up; without one, the calls it added. -/
def bound (budget : Budget) (invocations : Double) : Double :=
  match budget with
  | .bounded maxReinvoke => maxReinvoke
  | .unbounded => invocations.sub .one

def ending? (s : RunState) : Option Ending :=
  match s.stage with
  | .succeeded e => some (.succeeded e.details)
  | .failed e => some (.handlerFailed e.errorCode e.details.message)
  | .exhausted e => some (.budgetExhausted (bound s.budget s.invocationsIssued) e)
  | .errored e => some (.invocationError e)
  | _ => none

def summarise (s : RunState) : RunSummary where
  action := s.request.action
  bearerToken := s.request.bearerToken
  invocations := s.invocationsIssued
  warnings := s.warnings

def ofState? (s : RunState) : Option Outcome := (ending? s).map fun e => ⟨summarise s, e⟩

end Outcome

end Lifecycle
