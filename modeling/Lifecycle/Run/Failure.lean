import Lifecycle.Event.Envelope

/- What ends a run in error: a failed call, a cancelled one, or a response that is
   no progress event. -/
namespace Lifecycle

/-- Why one call of a handler gave no response. -/
inductive CallError where
  | connection (message endpoint : Text)
  | timeout (message : Text) (timeoutMs : Double)
  | protocol (message : Text) (raw : Option Text)
  | cancelled (message reason : Text)

/-- What ends a run in error. -/
inductive RunError where
  | call (e : CallError)
  | event (e : EventError)

namespace CallError

def code : CallError → Text
  | .connection .. => "CONNECTION_ERROR"
  | .timeout .. => "TIMEOUT"
  | .protocol .. => "PROTOCOL_ERROR"
  | .cancelled .. => "CANCELLED"

def message : CallError → Text
  | .connection m _ => m
  | .timeout m _ => m
  | .protocol m _ => m
  | .cancelled m _ => m

end CallError

namespace RunError

def code : RunError → Text
  | .call e => e.code
  | .event e => e.code.name

def message : RunError → Text
  | .call e => e.message
  | .event e => e.message

def summary : RunError → Text
  | .call (.connection message _) => "Connection error: " ++ message
  | .call (.timeout message _) => "Timeout: " ++ message
  | .call (.protocol message _) => "Protocol error: " ++ message
  | .call (.cancelled _ reason) => "Cancelled: " ++ reason
  | .event e => "Invalid progress event (" ++ e.code.name ++ "): " ++ e.message

end RunError

/-! ## Cancellation -/

/-- Why a signal was aborted: any value that the one who aborts hands over. -/
abbrev AbortReason := Value

def AbortReason.default : AbortReason := .error "This operation was aborted" []

/-- The reason that a signal keeps: the default one in place of an undefined value. -/
def AbortReason.kept : Value → AbortReason
  | .undefined => AbortReason.default
  | v => v

/-- The text of a reason: an error's message, a text unless it is empty, or a plain word. -/
def AbortReason.describe : AbortReason → Text
  | .error message _ => message
  | .text [] => "aborted"
  | .text s => s
  | _ => "aborted"

/-- The error of a call or a wait that an abort ended. -/
def CallError.cancelledBy (reason : AbortReason) : CallError :=
  .cancelled ("Invocation cancelled: " ++ AbortReason.describe reason) (AbortReason.describe reason)

/-- The reason with which a signal was aborted, if it was. -/
abbrev Signal := Option AbortReason

end Lifecycle
