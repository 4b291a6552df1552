import Lifecycle.Call.Reply
import Lifecycle.Log.Logger

/- One call of a handler, from the request to its settlement.

   A call is settled by what happens first: the endpoint answers or refuses, the
   deadline passes, or the signal is aborted. One whose signal is aborted when it is
   made is settled from the start. -/
namespace Lifecycle

/-- What can happen to a call under way. -/
inductive CallEvent where
  | answered (reply : Reply)
  | refused (refusal : Value)
  | deadline
  | aborted (reason : AbortReason)

/-- A call, and its result if it has one from the start. -/
structure Exchange where
  target : Target
  timeoutMs : Double
  result : Option CallResult

namespace Exchange

/-- A call on its way; one whose signal is aborted by now is never sent. -/
def begin (target : Target) (timeoutMs : Double) (signal : Signal) : Exchange :=
  match signal with
  | some reason => ⟨target, timeoutMs, some (.failed (.cancelledBy reason))⟩
  | none => ⟨target, timeoutMs, none⟩

def timeoutError (timeoutMs : Double) : CallError :=
  .timeout ("Handler did not respond within " ++ timeoutMs.toText ++ "ms") timeoutMs

/-- What an event makes of a call that waits for one. -/
def settlement (x : Exchange) : CallEvent → CallResult
  | .answered reply => .ofExcept reply.response
  | .refused refusal => Refusal.result x.target refusal
  | .deadline => .failed (timeoutError x.timeoutMs)
  | .aborted reason => .failed (.cancelledBy reason)

/-- What is logged about a call that is sent. -/
def note (target : Target) : LogEntry where
  level := .trace
  members := [("endpoint", .text target.endpoint), ("functionName", .text target.functionIdentity)]
  message := some "Lambda invoke"

def component : Text := "LambdaHandlerClient"

end Exchange

end Lifecycle
