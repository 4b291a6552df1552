import Lifecycle.Number.Numeral
import Lifecycle.Request
import Lifecycle.Run.State
import Lifecycle.Url

/- The configuration of the command line.

   Five fields, each given by a flag or by an environment variable, the flag first.
   A field that is not given has its default. Each field is checked by itself, and
   all faults are reported together in the order of the fields. -/
namespace Lifecycle

inductive Field where
  | endpoint
  | functionName
  | region
  | maxReinvoke
  | timeout
deriving DecidableEq

namespace Field

def all : List Field := [.endpoint, .functionName, .region, .maxReinvoke, .timeout]

def variableName : Field → Text
  | .endpoint => "PROVIDER_INVOKE_ENDPOINT"
  | .functionName => "PROVIDER_INVOKE_FUNCTION_NAME"
  | .region => "PROVIDER_INVOKE_REGION"
  | .maxReinvoke => "PROVIDER_INVOKE_MAX_REINVOKE"
  | .timeout => "PROVIDER_INVOKE_TIMEOUT_SECONDS"

def flag : Field → Text
  | .endpoint => "--endpoint"
  | .functionName => "--function-name"
  | .region => "--region"
  | .maxReinvoke => "--max-reinvoke"
  | .timeout => "--timeout"

/-- How faults name a field. -/
def label (f : Field) : Text := f.variableName ++ " (" ++ f.flag ++ ")"

end Field

/-- The texts that are given for the fields. -/
abbrev Given := Field → Option Text

namespace Given

def ofEnvironment (environment : List (Text × Text)) : Given :=
  fun f => Member.find? f.variableName environment

/-- The first source of a field that gives it. -/
def orElse (flags environment : Given) : Given := fun f => (flags f).or (environment f)

end Given

/-- A fault in the configuration and its place. -/
structure ConfigurationIssue where
  place : Text
  message : Text
deriving DecidableEq

structure Configuration where
  target : Target
  region : Text
  budget : Budget
  timeoutMs : Double
deriving DecidableEq

namespace Configuration

/-! ## Fields -/

/-- The endpoint has to be an absolute URL. -/
def checkEndpoint : Option Text → Except Text Text
  | none => .ok "http://127.0.0.1:3001"
  | some t => if Url.isAbsolute t then .ok t else .error "Endpoint must be a URL"

def checkFunctionName : Option Text → Except Text Text
  | none => .ok "TestEntrypoint"
  | some [] => .error "Function name cannot be empty"
  | some t => .ok t

def checkRegion : Option Text → Except Text Text
  | none => .ok "us-east-1"
  | some [] => .error "Region cannot be empty"
  | some t => .ok t

/-- A whole number; a blank text gives none. -/
def wholeNumber (subject : Text) : Option Text → Except Text (Option Double)
  | none => .ok none
  | some t =>
    if t.trim.isEmpty then .ok none
    else
      match Numeral.read? t with
      | none => .error (subject ++ " must be a number")
      | some .nan => .error (subject ++ " must be a number")
      | some x => if x.isInteger then .ok (some x) else .error (subject ++ " must be an integer")

/-- The bound on repeated calls must not be negative. -/
def checkMaxReinvoke (given : Option Text) : Except Text (Option Double) :=
  match wholeNumber "Max re-invoke" given with
  | .ok (some x) =>
    if x.lt .zero then .error "Max re-invoke cannot be negative" else .ok (some x)
  | r => r

/-- The timeout is between one second and fifteen minutes. -/
def checkTimeout (given : Option Text) : Except Text Double :=
  match wholeNumber "Timeout" given with
  | .error m => .error m
  | .ok none => .ok (.ofNat 30)
  | .ok (some x) =>
    if x.lt (.ofNat 1) then .error "Timeout must be at least 1 second"
    else if (Double.ofNat 900).lt x then .error "Timeout cannot exceed 900 seconds"
    else .ok x

/-! ## The whole configuration -/

/-- What is wrong with a given field, if anything. -/
def fault? (f : Field) (given : Option Text) : Option Text :=
  let ofCheck {α : Type} : Except Text α → Option Text
    | .ok _ => none
    | .error m => some m
  match f with
  | .endpoint => ofCheck (checkEndpoint given)
  | .functionName => ofCheck (checkFunctionName given)
  | .region => ofCheck (checkRegion given)
  | .maxReinvoke => ofCheck (checkMaxReinvoke given)
  | .timeout => ofCheck (checkTimeout given)

def issues (given : Given) : List ConfigurationIssue :=
  Field.all.filterMap fun f => (fault? f (given f)).map fun m => ⟨f.label, m⟩

/-- The configuration that the given fields make up, or all their faults. -/
def load (given : Given) : Except (List ConfigurationIssue) Configuration :=
  match checkEndpoint (given .endpoint), checkFunctionName (given .functionName), checkRegion (given .region),
      checkMaxReinvoke (given .maxReinvoke), checkTimeout (given .timeout) with
  | .ok endpoint, .ok function, .ok region, .ok bound, .ok seconds =>
    .ok ⟨⟨endpoint, function⟩, region, .ofMax? bound, seconds.scale 1000⟩
  | _, _, _, _, _ => .error (issues given)

end Configuration

end Lifecycle
