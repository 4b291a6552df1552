import Lifecycle.Call.Result
import Lifecycle.Log.Logger

/- One run as a machine that asks for calls and waits.

   A run under way makes one demand at a time: a call of the handler, a wait, or
   nothing more. It is resumed with what the call or the wait came to, and with the
   signal as it is then, and goes on to its next demand. Whatever it does is added
   to its trace: the calls, the waits and its notes for the log. -/
namespace Lifecycle

/-- What a run writes to the log. -/
inductive RunNote where
  | waiting (delaySeconds : Double)
  | invoking (invocation : Double) (callbackContext : Value)
  | warned (invocation : Double) (warning : Warning)
  | responded (invocation : Double) (status : Status)
  | finished (outcome : Text) (invocationCount : Double)

/-- One thing that a run did. -/
inductive Happening where
  | called (target : Target) (request : Request)
  | waited (milliseconds : Double)
  | noted (note : RunNote)

/-- What a run needs next. -/
inductive Demand where
  | call
  | wait (milliseconds : Double)
  | nothing
  | crashed (fault : Fault)

structure Run where
  target : Target
  state : RunState
  demand : Demand
  trace : List Happening

namespace Run

def add (r : Run) (hs : List Happening) : Run := { r with trace := r.trace ++ hs }

/-- A run that is over says so and asks for nothing. -/
def finish (r : Run) : Run :=
  { r.add [.noted (.finished r.state.stage.name r.state.invocationCount)] with demand := .nothing }

def fail (r : Run) (e : RunError) : Run := finish { r with state := r.state.fail e }

/-- An error that nothing foresees ends a run without an outcome. -/
def crash (r : Run) (fault : Fault) : Run := { r with demand := .crashed fault }

/-- Begin the next call unless the signal is aborted or the budget is used up. -/
def callNext (signal : Signal) (r : Run) : Run :=
  match signal with
  | some reason => r.fail (.call (.cancelledBy reason))
  | none =>
    match r.state.begin with
    | .error e => r.crash (.step e)
    | .ok s =>
      let r := { r with state := s }
      if s.isTerminal then r.finish
      else
        { r.add [.noted (.invoking s.invocationCount s.request.callbackContext),
            .called r.target s.request] with demand := .call }

/-- Go on after a step: wait if a delay is due and the budget allows another call. -/
def proceed (signal : Signal) (r : Run) : Run :=
  match r.state.stage with
  | .continuing delay =>
    if Double.zero.lt delay && r.state.budget.allows (r.state.invocationCount.add .one) then
      { r.add [.noted (.waiting delay), .waited (delay.scale 1000)] with
        demand := .wait (delay.scale 1000) }
    else r.callNext signal
  | .pending => r.callNext signal
  | _ => r.finish

/-- Start a run; its first demand is there at once. -/
def start (plan : Plan) (budget : Budget) (signal : Signal) : Run :=
  proceed signal
    { target := plan.target, state := .initial plan.request budget, demand := .nothing, trace := [] }

/-- Go on after a wait that ended in time, or with an error. -/
def resumeWait (r : Run) (error : Option CallError) (signal : Signal) : Run :=
  match error with
  | some e => r.fail (.call e)
  | none => r.callNext signal

def reportNotes (invocation : Double) (report : Report) : List Happening :=
  report.warnings.map (fun w => .noted (.warned invocation w)) ++
    [.noted (.responded invocation report.event.status)]

/-- Go on after a call, with what it came to. -/
def resumeCall (r : Run) (result : CallResult) (signal : Signal) : Run :=
  match result with
  | .crashed fault => r.crash fault
  | .failed e => r.fail (.call e)
  | .responded response =>
    match Envelope.check response with
    | .error e => r.fail (.event e)
    | .ok report =>
      let r := r.add (reportNotes r.state.invocationCount report)
      proceed signal { r with state := r.state.apply report }

/-- Serve the demands of a run until there is none, at most as many as the fuel allows. -/
def drive {S : Type} (serve : S → Run → Option (S × Run)) : Nat → S → Run → S × Run
  | 0, s, r => (s, r)
  | fuel + 1, s, r =>
    match serve s r with
    | some (s, r) => drive serve fuel s r
    | none => (s, r)

end Run

/-! ## Reading a trace -/

def callsOf (trace : List Happening) : List (Target × Request) :=
  trace.filterMap fun | .called t r => some (t, r) | _ => none

def waitsOf (trace : List Happening) : List Double :=
  trace.filterMap fun | .waited ms => some ms | _ => none

def notesOf (trace : List Happening) : List RunNote :=
  trace.filterMap fun | .noted n => some n | _ => none

/-! ## Notes as log entries -/

namespace Warning

def toValue (w : Warning) : Value :=
  .object [("code", .text w.code.name), ("status", .text w.status.name), ("message", .text w.message)]

end Warning

namespace RunNote

def level : RunNote → Level
  | .warned .. => .warn
  | .finished .. => .info
  | _ => .debug

def message : RunNote → Text
  | .waiting _ => "Waiting before re-invocation"
  | .invoking .. => "Invoking handler"
  | .warned .. => "Handler response violates the contract"
  | .responded .. => "Handler responded"
  | .finished .. => "Run finished"

def members : RunNote → Members
  | .waiting d => [("delaySeconds", .number d)]
  | .invoking n context => [("invocation", .number n), ("callbackContext", context)]
  | .warned n w => [("invocation", .number n), ("warning", w.toValue)]
  | .responded n s => [("invocation", .number n), ("status", .text s.name)]
  | .finished outcome n => [("outcome", .text outcome), ("invocationCount", .number n)]

def entry (n : RunNote) : LogEntry := ⟨n.level, n.members, some n.message⟩

end RunNote

/-- What every entry of a run is bound to. -/
def runBindings (request : Request) : Members :=
  [("bearerToken", .text request.bearerToken), ("action", .text request.action.name)]

end Lifecycle
