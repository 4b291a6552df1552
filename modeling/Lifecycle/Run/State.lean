import Lifecycle.Request
import Lifecycle.Run.Failure

/- The states of a run and the steps between them.

   A run is pending, running a call, about to call again, or over: with success,
   with failure, with its budget used up, or in error. Each step is a function on
   states; who performs the calls and the waits is no concern of this file. -/
namespace Lifecycle

/-- How many calls a run may add to the first one. -/
inductive Budget where
  | unbounded
  | bounded (maxReinvoke : Double)
deriving DecidableEq

namespace Budget

def ofMax? : Option Double → Budget
  | none => .unbounded
  | some n => .bounded n

/-- A number of calls that uses up the budget, for budgets that can be used up. -/
def calls : Budget → Nat
  | .unbounded => 0
  | .bounded maxReinvoke =>
    match maxReinvoke.steps? with
    | some steps => (steps / Double.stepsPerOne).toNat + 1
    | none => 0

/-- Whether call number `count` may be made; the first is never counted. -/
def allows (b : Budget) (count : Double) : Bool :=
  match b with
  | .unbounded => true
  | .bounded maxReinvoke => count.le .one || (count.sub .one).le maxReinvoke

end Budget

/-- Where a run stands. -/
inductive Stage where
  | pending
  | running
  | continuing (delaySeconds : Double)
  | succeeded (event : SuccessEvent)
  | failed (event : FailedEvent)
  | exhausted (event : InProgressEvent)
  | errored (error : RunError)

namespace Stage

/-- The name of a stage in logs and messages. -/
def name : Stage → Text
  | .pending => "pending"
  | .running => "running"
  | .continuing _ => "continuing"
  | .succeeded _ => "done_success"
  | .failed _ => "done_failed"
  | .exhausted _ => "done_exhausted"
  | .errored _ => "done_error"

def isTerminal : Stage → Bool
  | .pending => false
  | .running => false
  | .continuing _ => false
  | _ => true

end Stage

/-- The state of a run. The count includes the call that a used-up budget suppressed. -/
structure RunState where
  stage : Stage
  invocationCount : Double
  budget : Budget
  request : Request
  lastEvent : Option Event
  warnings : List Warning

/-- A step that is taken where it cannot be. -/
inductive StepError where
  | notReady (stage : Text)
  | nothingInProgress
deriving DecidableEq

def StepError.message : StepError → Text
  | .notReady stage => "beginInvocation called in state '" ++ stage ++ "'"
  | .nothingInProgress => "Budget exhausted without a preceding IN_PROGRESS event"

namespace RunState

def initial (request : Request) (budget : Budget) : RunState where
  stage := .pending
  invocationCount := .zero
  budget := budget
  request := request
  lastEvent := none
  warnings := []

def isTerminal (s : RunState) : Bool := s.stage.isTerminal

/-- Count the next call: make it if the budget allows it, otherwise the run is over. -/
def countCall (s : RunState) : Except StepError RunState :=
  let count := s.invocationCount.add .one
  if s.budget.allows count then .ok { s with invocationCount := count, stage := .running }
  else
    match s.lastEvent with
    | some (.inProgress e) => .ok { s with invocationCount := count, stage := .exhausted e }
    | _ => .error .nothingInProgress

/-- Begin the next call, from a state that waits for one. -/
def begin (s : RunState) : Except StepError RunState :=
  match s.stage with
  | .pending => s.countCall
  | .continuing _ => s.countCall
  | stage => .error (.notReady stage.name)

def apply (s : RunState) (r : Report) : RunState :=
  let s := { s with lastEvent := some r.event, warnings := s.warnings ++ r.warnings }
  match r.event with
  | .success e => { s with stage := .succeeded e }
  | .failed e => { s with stage := .failed e }
  | .inProgress e =>
    { s with
      request := s.request.withCallbackContext e.callbackContext
      stage := .continuing e.delaySeconds }

def fail (s : RunState) (e : RunError) : RunState := { s with stage := .errored e }

/-- The number of calls made: an exhausted run counted one that it never made. -/
def invocationsIssued (s : RunState) : Double :=
  match s.stage with
  | .exhausted _ => s.invocationCount.sub .one
  | _ => s.invocationCount

end RunState

end Lifecycle
