import Lifecycle.Call.Result
import Lifecycle.Json.Reader
import Lifecycle.Request

/- What a handler's endpoint answers, and what it comes to.

   A reply has a payload, or says that the function raised an error. The payload has
   to be the JSON text of an object. An endpoint that rejects a call, or that cannot
   be reached, gives an error that tells the two apart by the response metadata. -/
namespace Lifecycle

/-- The answer of an endpoint to one call. -/
structure Reply where
  functionError : Option Text
  payload : Option (List UInt8)

namespace Reply

/-- The text of a reply; without a payload it is empty. -/
def text (r : Reply) : Text := (r.payload.map Utf8.decode).getD []

def responseOf (t : Text) : Except CallError Value :=
  if t.trim.isEmpty then .error (.protocol "Handler returned an empty payload" (some t))
  else
    match Json.parse? t with
    | none => .error (.protocol "Handler payload is not valid JSON: <json syntax error>" (some t))
    | some v =>
      if v.isObject then .ok v
      else .error (.protocol "Handler payload is not a JSON object" (some t))

def response (r : Reply) : Except CallError Value :=
  match r.functionError with
  | some (u :: name) =>
    .error (.protocol ("Handler function raised an error (" ++ u :: name ++
      ") instead of returning a progress event") (some r.text))
  | _ => responseOf r.text

end Reply

namespace Refusal

/-- Whether a refusal carries the metadata of a response. -/
def hasStatus (refusal : Value) : Bool :=
  match (refusal.get "$metadata").get "httpStatusCode" with
  | .number _ => true
  | _ => false

def wording (refusal : Value) : Except ConversionError Text :=
  match refusal with
  | .error m ms => Value.headline m ms
  | v => v.plainWords

/-- What a refusal in these words comes to. -/
def errorOf (target : Target) (refusal : Value) (words : Text) : CallError :=
  if hasStatus refusal then .protocol ("Endpoint rejected the invocation: " ++ words) none
  else .connection ("Could not reach " ++ target.endpoint ++ ": " ++ words) target.endpoint

/-- What a refusal comes to: an error of the call, unless it has no words. -/
def result (target : Target) (refusal : Value) : CallResult :=
  match wording refusal with
  | .ok words => .failed (errorOf target refusal words)
  | .error e => .crashed (.conversion e)

end Refusal

end Lifecycle
