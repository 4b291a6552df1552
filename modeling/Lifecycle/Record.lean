import Lifecycle.Outcome
import Lifecycle.Report.Fault
import Lifecycle.Report.Result

/- Reading the types of the library from plain records.

   A caller may hand over an event, an error, a state or a result as a record of
   members. The member that names the kind decides what the others mean; a kind that
   is not foreseen is refused with the record that names it. Messages are read by
   their words. -/
namespace Lifecycle

/-- Reading that may meet an unforeseen kind, or a value without words. -/
abbrev Reading (α : Type) := Except Fault α

namespace Record

/-! ## Members -/

/-- A text member; a missing one is empty. -/
def text (v : Value) (name : Text) : Text := ((v.get name).text?).getD []

def text? (v : Value) (name : Text) : Option Text := (v.get name).text?

/-- A number member; anything else is not a number. -/
def number (v : Value) (name : Text) : Double :=
  match v.get name with
  | .number x => x
  | _ => .nan

def number? (v : Value) (name : Text) : Option Double :=
  match v.get name with
  | .number x => some x
  | _ => none

def int? (v : Value) (name : Text) : Option Int := (number? v name).bind Double.toInt?

def list (v : Value) (name : Text) : List Value :=
  match v.get name with
  | .array items => items
  | _ => []

def list? (v : Value) (name : Text) : Option (List Value) :=
  match v.get name with
  | .array items => some items
  | _ => none

/-- The words of a member; a missing one is undefined. -/
def words (v : Value) (name : Text) : Reading Text :=
  match (v.get name).words with
  | .ok t => .ok t
  | .error e => .error (.conversion e)

/-- The words of the items of a list that may be missing. -/
def wordList? (v : Value) (name : Text) : Reading (Option (List Text)) :=
  match list? v name with
  | none => .ok none
  | some items =>
    match items.mapM Value.words with
    | .ok ts => .ok (some ts)
    | .error e => .error (.conversion e)

/-- Refuse to look for a member in what is null or undefined. -/
def need (v : Value) (member : Text) : Reading Unit :=
  if v.isAbsent then .error (.noRecord v member) else .ok ()

def refuse {α : Type} (v : Value) : Reading α := .error (.unhandled ⟨v⟩)

/-! ## Events -/

def details (v : Value) : Details where
  message := text? v "message"
  resourceModel := v.get? "resourceModel"
  resourceModels := list? v "resourceModels"
  nextToken := text? v "nextToken"

def failedEvent (v : Value) : FailedEvent := ⟨details v, text v "errorCode"⟩

def inProgressEvent (v : Value) : InProgressEvent where
  details := details v
  callbackContext := v.get "callbackContext"
  callbackDelaySeconds := number? v "callbackDelaySeconds"

def event (v : Value) : Reading Event := do
  need v "status"
  match (text? v "status").bind Status.ofName? with
  | some .success => .ok (.success ⟨details v⟩)
  | some .failed => .ok (.failed (failedEvent v))
  | some .inProgress => .ok (.inProgress (inProgressEvent v))
  | none => refuse v

def warning (v : Value) : Reading Warning :=
  match WarningCode.ofName? (text v "code"), Status.ofName? (text v "status") with
  | some code, some status => .ok ⟨code, status, text v "message"⟩
  | _, _ => refuse v

def warnings (v : Value) (name : Text) : Reading (List Warning) := do
  need (v.get name) "length"
  (list v name).mapM warning

def report (v : Value) : Reading Report := do
  let ws ← warnings v "warnings"
  .ok ⟨← event (v.get "event"), ws⟩

/-! ## Errors -/

/-- What ended a run in error, by its code. -/
def runError (v : Value) : Reading RunError := do
  need v "code"
  let code := text v "code"
  if code = "CONNECTION_ERROR" then do
    .ok (.call (.connection (← words v "message") (text v "endpoint")))
  else if code = "TIMEOUT" then do
    .ok (.call (.timeout (← words v "message") (number v "timeoutMs")))
  else if code = "PROTOCOL_ERROR" then do
    .ok (.call (.protocol (← words v "message") (text? v "raw")))
  else if code = "CANCELLED" then do
    .ok (.call (.cancelled (text v "message") (← words v "reason")))
  else match EventErrorCode.ofName? code with
    | some c => do .ok (.event ⟨c, ← words v "message", v.get "raw"⟩)
    | none => refuse v

def requestError (v : Value) : Reading RequestError := do
  need v "code"
  let code := text v "code"
  if code = "INVALID_ACTION" then .ok (.invalidAction (text v "value") (text v "message"))
  else if code = "MALFORMED_REQUEST" then do .ok (.malformedRequest (← words v "message"))
  else refuse v

/-! ## Runs -/

/-- A budget; its bound counts by its amount. -/
def budget (v : Value) : Budget :=
  if text v "kind" = "unbounded" then .unbounded
  else
    match (v.get "maxReinvoke").amount with
    | .ok x => .bounded x
    | .error _ => .bounded .nan

/-- A target; members that are missing are those of a local handler. -/
def target (v : Value) : Target where
  endpoint := (text? v "endpoint").getD "http://127.0.0.1:3001"
  functionIdentity := (text? v "functionIdentity").getD "TestEntrypoint"

/-- A request, over the request that stands for missing members. -/
def requestOver (base : Request) (v : Value) : Request where
  action := ((text? v "action").bind Action.ofName?).getD base.action
  resourceRequest := (v.get? "resourceRequest").getD base.resourceRequest
  callbackContext := (v.get? "callbackContext").getD base.callbackContext
  bearerToken := (text? v "bearerToken").getD base.bearerToken

def stage (v : Value) : Reading Stage :=
  let kind := text v "kind"
  let e := v.get "event"
  if kind = "pending" then .ok .pending
  else if kind = "running" then .ok .running
  else if kind = "continuing" then .ok (.continuing (number v "delaySeconds"))
  else if kind = "done_success" then .ok (.succeeded ⟨details e⟩)
  else if kind = "done_failed" then .ok (.failed (failedEvent e))
  else if kind = "done_exhausted" then .ok (.exhausted (inProgressEvent e))
  else if kind = "done_error" then do .ok (.errored (← runError (v.get "error")))
  else refuse v

/-- A member that is overwritten when the record has it. -/
def overwrite {α : Type} (v : Value) (name : Text) (old : α) (read : Value → Reading α) : Reading α :=
  match v.get? name with
  | some m => read m
  | none => .ok old

/-- A state with the members of a record written over it. -/
def patchState (s : RunState) (v : Value) : Reading RunState := do
  .ok {
    stage := ← overwrite v "status" s.stage stage
    invocationCount := (number? v "invocationCount").getD s.invocationCount
    budget := ← overwrite v "budget" s.budget fun b => .ok (budget b)
    request := ← overwrite v "request" s.request fun r => .ok (requestOver s.request r)
    lastEvent := ← overwrite v "lastEvent" s.lastEvent fun e => do .ok (some (← event e))
    warnings := ← overwrite v "warnings" s.warnings fun _ => warnings v "warnings" }

def outcome (v : Value) : Reading Outcome := do
  need v "invocations"
  let summary : RunSummary := {
    action := (Action.ofName? (text v "action")).getD .create
    bearerToken := text v "bearerToken"
    invocations := (number? v "invocations").getD .zero
    warnings := ← warnings v "warnings" }
  let kind := text v "kind"
  if kind = "succeeded" then .ok ⟨summary, .succeeded (details v)⟩
  else if kind = "handler_failed" then
    .ok ⟨summary, .handlerFailed (text v "errorCode") (text? v "message")⟩
  else if kind = "budget_exhausted" then
    need (v.get "lastEvent") "callbackContext"
    .ok ⟨summary, .budgetExhausted (number v "maxReinvoke") (inProgressEvent (v.get "lastEvent"))⟩
  else if kind = "invocation_error" then
    .ok ⟨summary, .invocationError (← runError (v.get "error"))⟩
  else refuse v

/-! ## Results -/

def output (v : Value) : Reading Output := do
  need v "message"
  .ok {
    message := ← words v "message"
    details := ← wordList? v "details"
    body := text? v "body"
    warnings := ← wordList? v "warnings"
    suggestions := ← wordList? v "suggestions" }

def output? (v : Value) : Reading (Option Output) :=
  if v.isAbsent then .ok none else do .ok (some (← output v))

def result (v : Value) : Reading CommandResult := do
  if text v "kind" = "success" then .ok (.success (← output? (v.get "output")))
  else .ok (.failure (.ofKind (text (v.get "exitCode") "kind")) (← output (v.get "output")))

def processExit (v : Value) : Reading ProcessExit := do
  need v "kind"
  let kind ← words v "kind"
  if kind = "success" then .ok .success
  else if kind = "failure" then .ok (.failure (int? v "status"))
  else .ok (.other kind (v.plainJson?.getD "undefined"))

end Record

end Lifecycle
