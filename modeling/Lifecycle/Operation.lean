import Lifecycle.Outcome
import Lifecycle.Run.Script

/- One operation from an action name and a body to its outcome.

   The action and the body are checked first; a token is drawn and the handler is
   called only if both are accepted. -/
namespace Lifecycle

structure OperationInput where
  action : Text
  body : Value
  target : Target
  budget : Budget

inductive OperationResult where
  | rejected (e : RequestError)
  | finished (o : Outcome)
  | crashed (fault : Fault)
  | unfinished

namespace Operation

/-- The plan of an operation, or why there is none. -/
def plan (tokens : TokenSource) (input : OperationInput) : Except RequestError (Plan × TokenSource) :=
  match Action.parse input.action with
  | .error e => .error e
  | .ok action => Plan.build input.target tokens action input.body

def resultOf (r : Run) : OperationResult :=
  match r.demand, Outcome.ofState? r.state with
  | .crashed fault, _ => .crashed fault
  | _, some o => .finished o
  | _, none => .unfinished

/-- Everything that outlives an operation. -/
structure Surroundings where
  session : Session
  tokens : TokenSource

def Surroundings.begin (script : Script) : Surroundings := ⟨.begin script, .numbered⟩

/-- An operation that was run, with its run if there was one. -/
structure Performed where
  result : OperationResult
  run : Option Run

def perform (script : Script) (s : Surroundings) (input : OperationInput) : Surroundings × Performed :=
  match plan s.tokens input with
  | .error e => (s, ⟨.rejected e, none⟩)
  | .ok (p, tokens) =>
    let (session, run) := Session.perform script s.session p input.budget
    (⟨session, tokens⟩, ⟨resultOf run, some run⟩)

/-- One operation of a sequence, with the surroundings that it met and those that it left. -/
structure Passage where
  before : Surroundings
  input : OperationInput
  performed : Performed
  after : Surroundings

/-- Perform operations one after the other, each in the surroundings that the last one left. -/
def performAll (script : Script) : Surroundings → List OperationInput → List Passage
  | _, [] => []
  | s, input :: rest =>
    let (after, performed) := perform script s input
    ⟨s, input, performed, after⟩ :: performAll script after rest

end Operation

end Lifecycle
