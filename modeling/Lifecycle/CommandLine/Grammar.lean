import Lifecycle.Configuration

/- The commands of the program, their arguments and their options. -/
namespace Lifecycle.CommandLine

/-- An option: its long and perhaps its short name, and what its value is called if it has one. -/
structure Opt where
  short : Option Text
  long : Text
  value : Option Text
  description : Text
deriving DecidableEq

namespace Opt

/-- Whether an argument is the name of an option. -/
def isNamed (o : Opt) (arg : Text) : Bool := o.long == arg || o.short == some arg

def written (o : Opt) : Text :=
  (match o.short with | some s => s ++ ", " | none => []) ++ o.long ++
    (match o.value with | some v => " <" ++ v ++ ">" | none => [])

end Opt

/-- A command with its arguments, all of which have to be given, and its options. -/
structure Command where
  name : Text
  arguments : List Text
  options : List Opt
  description : Text

/-- The option that asks for help, which every command has. -/
def helpOption : Opt := ⟨some "-h", "--help", none, "display help for command"⟩

/-- The option that asks for the version, which the program has. -/
def versionOption : Opt := ⟨some "-V", "--version", none, "output the version number"⟩

def verboseOption : Opt :=
  ⟨some "-v", "--verbose", none, "Log to stderr; repeat for per-invocation detail"⟩

def fieldOption (f : Field) : Opt where
  short := none
  long := f.flag
  value := some (match f with
    | .endpoint => "url"
    | .functionName => "name"
    | .region => "region"
    | .maxReinvoke => "count"
    | .timeout => "seconds")
  description := (match f with
    | .endpoint => ("Lambda-compatible endpoint" : Text)
    | .functionName => "Function to invoke"
    | .region => "Region for the Lambda client"
    | .maxReinvoke => "Maximum re-invocations after the first call"
    | .timeout => "Per-invocation deadline") ++ " (env " ++ f.variableName ++ ")"

def actionsCommand : Command :=
  ⟨"actions", [], [], "List the lifecycle actions a handler can be invoked with"⟩

def validateEventCommand : Command :=
  ⟨"validate-event", ["event-file"], [],
    "Check a saved handler response against the progress event contract"⟩

def invokeCommand : Command :=
  ⟨"invoke", ["action", "request-file"], Field.all.map fieldOption ++ [verboseOption],
    "Invoke a handler and re-invoke it until it reports SUCCESS or FAILED"⟩

/-- The commands in the order that help lists them. -/
def commands : List Command := [actionsCommand, validateEventCommand, invokeCommand]

def helpCommand : Text := "help"

def programName : Text := "provider-invoke"

def programDescription : Text :=
  "Drive resource provider handlers through a full lifecycle operation"

def version : Text := "0.1.0"

def command? (name : Text) : Option Command := commands.find? fun c => c.name == name

end Lifecycle.CommandLine
