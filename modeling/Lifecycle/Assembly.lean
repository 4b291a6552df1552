import Lifecycle.Log.Logger
import Lifecycle.Report.ProgramError

/- Putting the program together.

   The first call to assemble the parts starts an assembly, which is carried out a
   moment later; calls in between and afterwards share it, and one that fails is not
   tried again. A reset forgets every part and the assembly, but an assembly that
   was started before it is still carried out. Parts that are there beforehand, a
   configuration or a substitute for a role, are kept. -/
namespace Lifecycle

/-- What a process runs as. -/
inductive RuntimeMode where
  | production
  | test
  | cli
  | other (kind : Text)
deriving DecidableEq

namespace RuntimeMode

def name : RuntimeMode → Text
  | .production => "production"
  | .test => "test"
  | .cli => "cli"
  | .other kind => kind

def ofName (t : Text) : RuntimeMode :=
  (([.production, .test, .cli] : List RuntimeMode).find? fun m => m.name == t).getD (.other t)

/-- The mode that the environment speaks for. -/
def detect (environment : List (Text × Text)) : RuntimeMode :=
  if ((Member.find? "VITEST" environment).getD []).isEmpty then
    if Member.find? "NODE_ENV" environment = some "test" then .test else .production
  else .test

end RuntimeMode

/-- Whether a process hears the signals that ask it to stop. -/
inductive SignalPolicy where
  | install
  | ignore
deriving DecidableEq

namespace SignalPolicy

def name : SignalPolicy → Text
  | .install => "install_signal_handlers"
  | .ignore => "no_signal_handlers"

/-- The policy of a mode: tests leave the signals alone. -/
def ofMode : RuntimeMode → Except UnhandledVariant SignalPolicy
  | .production => .ok .install
  | .cli => .ok .install
  | .test => .ok .ignore
  | .other kind => .error ⟨.object [("kind", .text kind)]⟩

end SignalPolicy

/-- A role that may be given a substitute. -/
inductive Role where
  | loggers
  | handlerClient
  | sleeper
  | bearerTokens
deriving DecidableEq

namespace Role

def all : List Role := [.loggers, .handlerClient, .sleeper, .bearerTokens]

def name : Role → Text
  | .loggers => "LoggerFactory"
  | .handlerClient => "HandlerClient"
  | .sleeper => "Sleeper"
  | .bearerTokens => "BearerTokens"

def ofName? (t : Text) : Option Role := all.find? fun p => p.name == t

end Role

/-- What a role is served by. -/
inductive Provider where
  | standard
  | substitute
deriving DecidableEq

structure Parts where
  runtime : Option (RuntimeMode × SignalPolicy)
  configuration : Option Configuration
  providers : List (Role × Provider)
  logLevel : Option Level

namespace Parts

def empty : Parts := ⟨none, none, [], none⟩

/-- Give a role a provider, in place of the one it has. -/
def provide (p : Parts) (role : Role) (provider : Provider) : Parts :=
  { p with providers := (role, provider) :: p.providers.filter (·.1 != role) }

/-- Give a role its standard provider unless it has one. -/
def complete (p : Parts) (role : Role) : Parts :=
  if p.providers.any (·.1 == role) then p else p.provide role .standard

def provider? (p : Parts) (role : Role) : Option Provider :=
  (p.providers.find? (·.1 == role)).map (·.2)

end Parts

/-- How an assembly is carried out: in the mode that the caller names, if there is one. -/
structure AssemblyOptions where
  mode : Option RuntimeMode

/-- Assemblies of one process. -/
structure Assembly where
  parts : Parts
  initialized : Bool
  current : Option Nat
  started : List AssemblyOptions
  settled : List (Nat × Except Text Unit)
  performed : List AssemblyOptions

namespace Assembly

def empty : Assembly := ⟨.empty, false, none, [], [], []⟩

/-! ## Parts -/

def register (a : Assembly) (c : Configuration) : Assembly :=
  { a with parts := { a.parts with configuration := some c } }

def substitute (a : Assembly) (role : Role) : Assembly :=
  { a with parts := a.parts.provide role .substitute }

/-- Forget everything but the assemblies that are still to be carried out. -/
def reset (a : Assembly) : Assembly :=
  { a with parts := .empty, initialized := false, current := none, performed := [] }

/-! ## Assembling -/

/-- What a call to assemble is answered with. -/
inductive Answer where
  | done
  | shared (id : Nat)
  | begun (id : Nat)
deriving DecidableEq

def call (a : Assembly) (options : AssemblyOptions) : Assembly × Answer :=
  if a.initialized then (a, .done)
  else
    match a.current with
    | some id => (a, .shared id)
    | none =>
      ({ a with current := some a.started.length, started := a.started ++ [options] },
        .begun a.started.length)

def withRuntime (environment : List (Text × Text)) (options : AssemblyOptions) (p : Parts) :
    Except UnhandledVariant Parts :=
  let mode := options.mode.getD (.detect environment)
  (SignalPolicy.ofMode mode).map fun policy => { p with runtime := some (mode, policy) }

/-- The parts with a configuration: the one that is there, or the environment's. -/
def withConfiguration (environment : List (Text × Text)) (p : Parts) :
    Except (List ConfigurationIssue) Parts :=
  match p.configuration with
  | some _ => .ok p
  | none => (Configuration.load (.ofEnvironment environment)).map fun c => { p with configuration := some c }

/-- The parts with every role served, and the level of the standard loggers. -/
def withRoles (environment : List (Text × Text)) (p : Parts) : Parts :=
  let served := Role.all.foldl Parts.complete p
  let standard := served.provider? .loggers == some .standard
  { served with logLevel := if standard then some (Logger.levelOf environment) else none }

def failure (message : Text) : Text := "[DI] Container initialization failed: " ++ message

/-- Carry out an assembly on the parts that are there. -/
def assemble (environment : List (Text × Text)) (options : AssemblyOptions) (p : Parts) :
    Parts × Except Text Unit :=
  match withRuntime environment options p with
  | .error u => (p, .error (failure u.message))
  | .ok p =>
    match withConfiguration environment p with
    | .error issues => (p, .error (failure (ConfigurationIssue.report issues)))
    | .ok p => (withRoles environment p, .ok ())

def carryOut (a : Assembly) (environment : List (Text × Text)) (id : Nat) : Assembly :=
  match a.started[id]? with
  | none => a
  | some options =>
    let (parts, r) := assemble environment options a.parts
    { a with
      parts := parts
      initialized := a.initialized || r.isOk
      settled := (id, r) :: a.settled
      performed := a.performed ++ [options] }

/-- What an answered call comes to, once its assembly is settled. -/
def outcome? (a : Assembly) : Answer → Option (Except Text Unit)
  | .done => some (.ok ())
  | .shared id => (a.settled.find? (·.1 == id)).map (·.2)
  | .begun id => (a.settled.find? (·.1 == id)).map (·.2)

end Assembly

end Lifecycle
