import Lifecycle.Action
import Lifecycle.Json.Printer
import Lifecycle.Text.Utf8

/- Requests to a handler, and the first request of an operation.

   The wire payload is an object of four members in a fixed order. A request body
   is accepted when it is an object of JSON data; otherwise the first part that is
   not JSON is named. -/
namespace Lifecycle

/-- Where a handler lives. -/
structure Target where
  endpoint : Text
  functionIdentity : Text
deriving DecidableEq

/-- One call of a handler. -/
structure Request where
  action : Action
  resourceRequest : Value
  callbackContext : Value
  bearerToken : Text

/-- The first request of an operation and the handler it goes to. -/
structure Plan where
  target : Target
  request : Request

namespace Request

def withCallbackContext (r : Request) (context : Value) : Request :=
  { r with callbackContext := context }

def payload (r : Request) : Value :=
  .object [("action", .text r.action.name), ("bearerToken", .text r.bearerToken),
    ("resourceRequest", r.resourceRequest), ("callbackContext", r.callbackContext)]

def bytes (r : Request) : List UInt8 := Utf8.encode (Json.compact r.payload)

end Request

/-! ## Building the first request -/

/-- Why no operation is begun. -/
inductive RequestError where
  | invalidAction (raw message : Text)
  | malformedRequest (message : Text)
deriving DecidableEq

namespace RequestError

def code : RequestError → Text
  | .invalidAction .. => "INVALID_ACTION"
  | .malformedRequest _ => "MALFORMED_REQUEST"

def message : RequestError → Text
  | .invalidAction _ message => message
  | .malformedRequest message => message

def summary : RequestError → Text
  | .invalidAction _ message => message
  | .malformedRequest message => "Malformed request: " ++ message

/-- The error of a name that no action has. -/
def unknownAction (raw : Text) : RequestError :=
  .invalidAction raw ("Unknown action '" ++ raw ++ "'. Expected one of: " ++ Action.nameList)

end RequestError

def Action.parse (raw : Text) : Except RequestError Action :=
  match Action.ofName? raw with
  | some a => .ok a
  | none => .error (.unknownAction raw)

namespace RequestBody

/-- The shape of a body that is no object. -/
def shape : Value → Text
  | .null => "null"
  | .array _ => "an array"
  | v => "a " ++ v.kind

/-- What stands where JSON data should: a number by its text, anything else by its kind. -/
def describe : Value → Text
  | .number x => x.toText
  | v => v.kind

def check (body : Value) : Except RequestError Unit :=
  if !body.isObject then
    .error (.malformedRequest ("Request body must be a JSON object, got " ++ shape body))
  else
    match body.nonJsonPath? with
    | none => .ok ()
    | some path =>
      let place : Text := if path.isEmpty then "(root)" else Text.join "." path
      .error (.malformedRequest ("Request body is not plain JSON at " ++ place ++ ": " ++
        describe (body.follow path) ++ " is not a JSON value"))

end RequestBody

/-- The tokens of one source: every draw gives the next. -/
structure TokenSource where
  token : Nat → Text
  drawn : Nat

namespace TokenSource

/-- Numbered tokens, for sessions that can be repeated. -/
def numbered : TokenSource where
  token n := "token-" ++ Text.ofNat (n + 1)
  drawn := 0

def next (s : TokenSource) : Text × TokenSource := (s.token s.drawn, { s with drawn := s.drawn + 1 })

end TokenSource

/-- Build the first request; a token is drawn only for an accepted body. -/
def Plan.build (target : Target) (tokens : TokenSource) (action : Action) (body : Value) :
    Except RequestError (Plan × TokenSource) :=
  match RequestBody.check body with
  | .error e => .error e
  | .ok () =>
    let (token, tokens) := tokens.next
    .ok (⟨target, ⟨action, body, .object [], token⟩⟩, tokens)

end Lifecycle
