import Lifecycle.RequestFile
import Lifecycle.Run.Failure

/- The command that checks a saved response against the event contract. -/
namespace Lifecycle.Command

/-- What is special to the status of an event. -/
def statusDetails : Event → List Text
  | .success _ => ["terminal: yes"]
  | .failed e => ["terminal: yes", "errorCode: " ++ e.errorCode]
  | .inProgress e => ["terminal: no", "callbackContext: " ++ Json.compact e.callbackContext,
      "callbackDelaySeconds: " ++ e.delaySeconds.toText]

def commonDetails (d : Details) : List Text :=
  (match d.message with | some m => ["message: " ++ m] | none => []) ++
  (match d.resourceModel with | some v => ["resourceModel: " ++ Json.compact v] | none => []) ++
  (match d.resourceModels with
    | some items => ["resourceModels: " ++ Text.ofNat items.length ++ " item(s)"]
    | none => []) ++
  (match d.nextToken with | some t => ["nextToken: " ++ t] | none => [])

def describeEvent (path : Text) (r : Report) : CommandResult :=
  let kind : Text := if r.warnings.isEmpty then " event: " else " event with warnings: "
  .success (some {
    message := "Valid " ++ r.event.status.name ++ kind ++ path
    details := some (statusDetails r.event ++ commonDetails r.event.details)
    body := none
    warnings := nonempty? (r.warnings.map Warning.message)
    suggestions := none })

def validateBody (path : Text) (body : Value) : CommandResult :=
  if !body.isJson then .misuse (.ofMessage ("Not a JSON document: " ++ path))
  else
    match Envelope.check body with
    | .error e => .misuse { Output.ofMessage (RunError.event e).summary with
        details := some [path]
        suggestions := some ["Handlers must return an object with status SUCCESS, FAILED or IN_PROGRESS"] }
    | .ok r => describeEvent path r

/-- Check the response in a file, as far as it was loaded. -/
def validateEvent (path : Text) (file : LoadedFile) : CommandResult :=
  match file with
  | .loaded body => validateBody path body
  | file => (file.failure? path).getD (.success none)

end Lifecycle.Command
