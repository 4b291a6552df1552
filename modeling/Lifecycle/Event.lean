import Lifecycle.Event.ErrorCode
import Lifecycle.Json.Value

/- Progress events: what a handler reports about an operation.

   An operation has succeeded, has failed with an error code, or is in progress;
   then the handler wants to be called again, with a context it chose, after a
   delay it may name. -/
namespace Lifecycle

/-- How far an operation is. -/
inductive Status where
  | success
  | failed
  | inProgress
deriving DecidableEq

namespace Status

def all : List Status := [.success, .failed, .inProgress]

def name : Status → Text
  | .success => "SUCCESS"
  | .failed => "FAILED"
  | .inProgress => "IN_PROGRESS"

def ofName? (t : Text) : Option Status := all.find? fun s => s.name == t

def isTerminal (s : Status) : Bool := s != .inProgress

end Status

/-- What any event may carry besides its status. -/
structure Details where
  message : Option Text
  resourceModel : Option Value
  resourceModels : Option (List Value)
  nextToken : Option Text

/-- The event of a finished operation. -/
structure SuccessEvent where
  details : Details

/-- The event of a failed operation. -/
structure FailedEvent where
  details : Details
  errorCode : Text

/-- The event of an operation that goes on. -/
structure InProgressEvent where
  details : Details
  callbackContext : Value
  callbackDelaySeconds : Option Double

inductive Event where
  | success (e : SuccessEvent)
  | failed (e : FailedEvent)
  | inProgress (e : InProgressEvent)

namespace Event

def status : Event → Status
  | .success _ => .success
  | .failed _ => .failed
  | .inProgress _ => .inProgress

def details : Event → Details
  | .success e => e.details
  | .failed e => e.details
  | .inProgress e => e.details

end Event

/-- The delay before the next call; none counts as zero. -/
def InProgressEvent.delaySeconds (e : InProgressEvent) : Double :=
  e.callbackDelaySeconds.getD .zero

/-! ## Contract warnings -/

/-- A deviation from the contract that does not invalidate an event. -/
inductive WarningCode where
  | unexpectedCallbackContext
  | unexpectedCallbackDelay
  | unexpectedErrorCode
  | unknownErrorCode
deriving DecidableEq

namespace WarningCode

def all : List WarningCode :=
  [.unexpectedCallbackContext, .unexpectedCallbackDelay, .unexpectedErrorCode, .unknownErrorCode]

def name : WarningCode → Text
  | .unexpectedCallbackContext => "UNEXPECTED_CALLBACK_CONTEXT"
  | .unexpectedCallbackDelay => "UNEXPECTED_CALLBACK_DELAY"
  | .unexpectedErrorCode => "UNEXPECTED_ERROR_CODE"
  | .unknownErrorCode => "UNKNOWN_ERROR_CODE"

def ofName? (t : Text) : Option WarningCode := all.find? fun c => c.name == t

end WarningCode

/-- A warning with the status of the event it is about. -/
structure Warning where
  code : WarningCode
  status : Status
  message : Text
deriving DecidableEq

namespace Warning

def callbackContext (s : Status) : Warning where
  code := .unexpectedCallbackContext
  status := s
  message := s.name ++ " response carries a callbackContext; it is ignored"

def callbackDelay (s : Status) : Warning where
  code := .unexpectedCallbackDelay
  status := s
  message := s.name ++ " response carries callbackDelaySeconds; it is ignored"

def errorCode (code : Text) : Warning where
  code := .unexpectedErrorCode
  status := .success
  message := "SUCCESS response carries errorCode '" ++ code ++ "'"

/-- A failed operation carries a code outside the catalogue. -/
def unknownCode (code : Text) : Warning where
  code := .unknownErrorCode
  status := .failed
  message := "errorCode '" ++ code ++ "' is not a known handler error code"

end Warning

/-- An accepted response: its event, and its deviations in order. -/
structure Report where
  event : Event
  warnings : List Warning

end Lifecycle
