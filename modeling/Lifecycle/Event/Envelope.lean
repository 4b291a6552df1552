import Lifecycle.Event
import Lifecycle.Json.Printer

/- Checking a handler's response against the event contract.

   The checks come in a fixed order: the response is an object, its status is
   known, its members have the right types, a failed one has an error code, an
   unfinished one has a whole non-negative delay. The first that fails rejects the
   response; what else departs from the contract is a warning. A null member counts
   as absent. -/
namespace Lifecycle

/-- Why a response is no progress event. -/
inductive EventErrorCode where
  | unknownStatus
  | missingErrorCode
  | invalidDelay
  | malformedEvent
deriving DecidableEq

namespace EventErrorCode

def all : List EventErrorCode := [.unknownStatus, .missingErrorCode, .invalidDelay, .malformedEvent]

def name : EventErrorCode → Text
  | .unknownStatus => "UNKNOWN_STATUS"
  | .missingErrorCode => "MISSING_ERROR_CODE"
  | .invalidDelay => "INVALID_DELAY"
  | .malformedEvent => "MALFORMED_EVENT"

def ofName? (t : Text) : Option EventErrorCode := all.find? fun c => c.name == t

end EventErrorCode

/-- A rejected response, with the response itself. -/
structure EventError where
  code : EventErrorCode
  message : Text
  raw : Value

namespace Envelope

/-! ## Member types -/

/-- Whether a value can be waited for: it brings functions under `then` and `catch`. -/
def isAwaitable (v : Value) : Bool := (v.get "then").isFunction && (v.get "catch").isFunction

/-- The type of a value in the words of type messages. -/
def typeName : Value → Text
  | .null => "null"
  | .number .nan => "nan"
  | .array _ => "array"
  | v => if isAwaitable v then "promise" else v.kind

/-- What is wrong with a member of a response. -/
structure Issue where
  path : List Text
  message : Text

def textIssues (raw : Value) (name : Text) : List Issue :=
  match (raw.get name).present? with
  | none => []
  | some (.text _) => []
  | some v => [⟨[name], "Expected string, received " ++ typeName v⟩]

/-- A present member has to be an object of JSON data. -/
def objectIssues (raw : Value) (name : Text) : List Issue :=
  match (raw.get name).present? with
  | none => []
  | some v => if v.isJsonObject then [] else [⟨[name], "Expected a JSON object"⟩]

def valueIssues (raw : Value) (name : Text) : List Issue :=
  match (raw.get name).present? with
  | none => []
  | some v => if v.isJson then [] else [⟨[name], "Expected a JSON value"⟩]

/-- The items of a list that are not JSON data, counted from an index. -/
def itemIssues (name : Text) (index : Nat) : List Value → List Issue
  | [] => []
  | v :: rest =>
    (if v.isJson then [] else [⟨[name, Text.ofNat index], "Expected a JSON value"⟩]) ++
      itemIssues name (index + 1) rest

/-- A present member has to be a list of JSON data. -/
def listIssues (raw : Value) (name : Text) : List Issue :=
  match (raw.get name).present? with
  | none => []
  | some (.array items) => itemIssues name 0 items
  | some v => [⟨[name], "Expected array, received " ++ typeName v⟩]

/-- Every member of the wrong type, in the order of the contract. -/
def memberIssues (raw : Value) : List Issue :=
  textIssues raw "message" ++ textIssues raw "errorCode" ++ objectIssues raw "callbackContext" ++
    valueIssues raw "resourceModel" ++ listIssues raw "resourceModels" ++ textIssues raw "nextToken"

/-- What is wrong with the types of a response: a response that can be waited for is refused as a
    whole, without a look at its members. -/
def issues (raw : Value) : List Issue :=
  if isAwaitable raw then [⟨[], "Expected object, received promise"⟩] else memberIssues raw

def Issue.place (i : Issue) : Text := if i.path.isEmpty then "(root)" else Text.join "." i.path

def issueLine (is : List Issue) : Text :=
  Text.join "; " (is.map fun i => i.place ++ ": " ++ i.message)

/-! ## Members -/

def text? (raw : Value) (name : Text) : Option Text := (raw.get name).present?.bind Value.text?

def list? (raw : Value) (name : Text) : Option (List Value) :=
  match raw.get name with
  | .array items => some items
  | _ => none

def details (raw : Value) : Details where
  message := text? raw "message"
  resourceModel := (raw.get "resourceModel").present?
  resourceModels := list? raw "resourceModels"
  nextToken := text? raw "nextToken"

/-- The number of seconds of a delay: a whole non-negative double, or an integer literal. -/
def delaySeconds? : Value → Option Double
  | .number x => if x.isInteger && Double.zero.le x then some x else none
  | .exact l => if l.isInteger && !l.negative then some l.toDouble else none
  | _ => none

/-! ## Reports by status -/

/-- The warnings that any finished operation may get. -/
def terminalWarnings (raw : Value) (s : Status) : List Warning :=
  (if (raw.get "callbackContext").isAbsent then [] else [Warning.callbackContext s]) ++
    (if (raw.get "callbackDelaySeconds").isAbsent then [] else [Warning.callbackDelay s])

def successReport (raw : Value) : Report where
  event := .success ⟨details raw⟩
  warnings :=
    (match text? raw "errorCode" with | some code => [Warning.errorCode code] | none => []) ++
      terminalWarnings raw .success

def failedReport (raw : Value) (code : Text) : Report where
  event := .failed ⟨details raw, code⟩
  warnings :=
    (if ErrorCode.isKnown code then [] else [Warning.unknownCode code]) ++
      terminalWarnings raw .failed

def inProgressReport (raw : Value) (delay : Option Double) : Report where
  event := .inProgress
    ⟨details raw, ((raw.get "callbackContext").present?).getD (.object []), delay⟩
  warnings := []

/-! ## The check -/

/-- The status of a response, if it is one of the three. -/
def status? (raw : Value) : Option Status := (raw.get "status").text?.bind Status.ofName?

def reject (raw : Value) (code : EventErrorCode) (message : Text) : Except EventError Report :=
  .error ⟨code, message, raw⟩

/-- What a response of a known status with well-typed members reports. -/
def report (raw : Value) : Status → Except EventError Report
  | .success => .ok (successReport raw)
  | .failed =>
    match text? raw "errorCode" with
    | some (u :: rest) => .ok (failedReport raw (u :: rest))
    | _ => reject raw .missingErrorCode "FAILED response carries no errorCode"
  | .inProgress =>
    match (raw.get "callbackDelaySeconds").present? with
    | none => .ok (inProgressReport raw none)
    | some v =>
      match delaySeconds? v with
      | some seconds => .ok (inProgressReport raw (some seconds))
      | none =>
        reject raw .invalidDelay
          ("callbackDelaySeconds must be a non-negative integer, got " ++ Json.compact v)

/-- Check a response and read its event. -/
def check (raw : Value) : Except EventError Report :=
  if !raw.isObject then reject raw .malformedEvent "Response must be a JSON object"
  else
    match status? raw with
    | none => reject raw .unknownStatus ("Unknown status " ++ Json.compact (raw.get "status"))
    | some s =>
      match issues raw with
      | [] => report raw s
      | is => reject raw .malformedEvent
          ("Response fields have the wrong type (" ++ issueLine is ++ ")")

end Envelope

end Lifecycle
