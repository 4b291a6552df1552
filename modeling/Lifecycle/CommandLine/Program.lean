import Lifecycle.Assembly
import Lifecycle.Command.Actions
import Lifecycle.Command.Invoke
import Lifecycle.Command.ValidateEvent
import Lifecycle.CommandLine.Parse
import Lifecycle.Report.Termination
import Lifecycle.Run.Shutdown
import Lifecycle.WorkingDirectory

/- The program: from arguments to what is printed, logged and left behind.

   Help, versions and usage errors are printed as they are. A job is done and its
   result shown. A job that crashes is reported with an exit status of its own, and
   then its listeners for process signals are still there. -/
namespace Lifecycle.CommandLine

/-- All that a run of the program depends on. -/
structure Situation where
  args : List Text
  environment : List (Text × Text)
  styled : Bool
  entryAt : Text → Option FileEntry
  tokens : TokenSource
  answers : List Answer
  stop : Option (Nat × StopSignal)

/-- What a run of the program does. -/
structure Performance where
  process : ProcessTrace
  log : List Text
  listeners : Nat
  session : Session

namespace Situation

/-- The handler that the program meets: a process signal that the program listens for aborts the
    run in its call. -/
def script (s : Situation) : Script where
  answers := s.answers
  abort := (s.stop.filter fun stop => StopSignal.all.contains stop.2).map fun stop =>
    (.call stop.1, stop.2.reason)

/-- A performance without calls, waits or log. -/
def quiet (s : Situation) (process : ProcessTrace) : Performance :=
  ⟨process, [], 0, .begin s.script⟩

end Situation

/-! ## Printing -/

/-- A text on the standard output, and a good end. -/
def printed (t : Text) : ProcessTrace := ⟨t, [], some 0, none⟩

/-- A text on the standard error stream, and a bad end. -/
def complained (t : Text) : ProcessTrace := ⟨[], t, some 1, none⟩

def crashed (styled : Bool) (fault : Fault) : ProcessTrace :=
  ProcessTrace.interpret .direct styled (.failure .unhandled
    (.ofMessage (ProgramError.withCause "Unexpected error" fault.describe)))

/-! ## Jobs -/

/-- The logger of a run, at the level that the options and the environment ask for. -/
def runLogger (environment : List (Text × Text)) (verbosity : Nat) (request : Request) : Logger :=
  let root := Logger.root environment
  (({ root with level := Level.forVerbosity verbosity root.level } : Logger).component
    "ReinvocationLoop").child (runBindings request)

def runLog (environment : List (Text × Text)) (verbosity : Nat) : Option Run → List Text
  | none => []
  | some r =>
    (notesOf r.trace).flatMap fun n =>
      (runLogger environment verbosity r.state.request).write n.entry

/-- How many listeners are left when a run ends, given the calls it made. -/
def listenersLeft (s : Situation) (calls : Nat) (isCrash : Bool) : Nat :=
  let watch := Watch.begin StopSignal.all
  let watch := match s.stop with
    | some (n, signal) => if n ≤ calls then watch.raise signal else watch
    | none => watch
  if isCrash then watch.listening.length else watch.dispose.listening.length

def invoke (s : Situation) (c : Configuration) (action path : Text) (verbosity : Nat) : Performance :=
  match LoadedFile.ofEntry (s.entryAt path) with
  | .error e => ⟨crashed s.styled (.conversion e), [], listenersLeft s 0 true, .begin s.script⟩
  | .ok file =>
    let (u, r, run) := Command.invoke s.script ⟨.begin s.script, s.tokens⟩
      ⟨action, path, c.target, c.budget⟩ file
    let listeners := listenersLeft s u.session.calls.length
    let log := runLog s.environment verbosity run
    match r with
    | .result r => ⟨ProcessTrace.interpret .exiting s.styled r, log, listeners false, u.session⟩
    | .crashed fault => ⟨crashed s.styled fault, log, listeners true, u.session⟩
    | .unfinished => ⟨.empty, log, listeners true, u.session⟩

def perform (s : Situation) : Job → Performance
  | .actions => s.quiet (.interpret .direct s.styled Command.actions)
  | .validateEvent path =>
    s.quiet (match LoadedFile.ofEntry (s.entryAt path) with
      | .ok file => .interpret .direct s.styled (Command.validateEvent path file)
      | .error e => crashed s.styled (.conversion e))
  | .invoke action path flags verbosity =>
    match Configuration.load (flags.orElse (.ofEnvironment s.environment)) with
    | .error issues =>
      s.quiet (.interpret .direct s.styled
        (.misuse (.ofMessage (ConfigurationIssue.report issues))))
    | .ok c => invoke s c action path verbosity

def run (s : Situation) : Performance :=
  match parse s.args with
  | .version => s.quiet (printed (version ++ "\n"))
  | .help page false => s.quiet (printed page.text)
  | .help page true => s.quiet (complained page.text)
  | .error e => s.quiet (complained (e.message ++ "\n"))
  | .job j => perform s j

end Lifecycle.CommandLine
