import Lifecycle.CommandLine.Program
import Lifecycle.Call.Reply
import Lifecycle.Token.Uuid

/- The program's outer layer: arguments, environment and files come in, texts go out.

   What to do is decided elsewhere. No transport to an endpoint is built in, so a
   handler is met as one that cannot be reached. -/
namespace Lifecycle

def knownVariables : List String :=
  ["PROVIDER_INVOKE_ENDPOINT", "PROVIDER_INVOKE_FUNCTION_NAME", "PROVIDER_INVOKE_REGION",
    "PROVIDER_INVOKE_MAX_REINVOKE", "PROVIDER_INVOKE_TIMEOUT_SECONDS", "PROVIDER_INVOKE_LOG_LEVEL"]

def readVariables : IO (List (Text × Text)) :=
  knownVariables.filterMapM fun name => do
    return (← IO.getEnv name).map fun value => (Text.ofString name, Text.ofString value)

def CommandLine.Job.path? : CommandLine.Job → Option Text
  | .actions => none
  | .validateEvent path => some path
  | .invoke _ path _ _ => some path

/-- The fields that the flags of a job give. -/
def CommandLine.Job.flags : CommandLine.Job → Given
  | .invoke _ _ flags _ => flags
  | _ => fun _ => none

/-- What a failure to read a file says about the path. -/
def entryOf : IO.Error → Option FileEntry
  | .noFileOrDirectory .. => none
  | .permissionDenied .. => some (.unreadable (.error "permission denied" [("code", .text "EACCES")]))
  | .inappropriateType .. => some WorkingDirectory.directoryError
  | e => some (.unreadable (.error (Text.ofString e.toString) []))

/-- What is at a path of the file system. -/
def readEntry (path : Text) : IO (Option FileEntry) :=
  tryCatch (do
    let bytes ← IO.FS.readBinFile path.toString
    return some (.content (Utf8.decodeFrom none bytes.toList)))
    fun e => return entryOf e

def randomBits : IO Nat := do
  let bytes ← IO.getRandomBytes 16
  return bytes.toList.foldl (fun n b => 256 * n + b.toNat) 0

/-- The answer of an endpoint without a transport to it. -/
def unreachable (environment : List (Text × Text)) (flags : Given) : List Answer :=
  match Configuration.load (flags.orElse (.ofEnvironment environment)) with
  | .ok c => [.fail (Refusal.errorOf c.target .undefined "no transport")]
  | .error _ => []

def writeText (stream : IO.FS.Stream) (t : Text) : IO Unit :=
  if t.isEmpty then return () else do
    stream.putStr t.toString
    stream.flush

end Lifecycle

open Lifecycle

def main (args : List String) : IO UInt32 := do
  let args := args.map Text.ofString
  let job? : Option CommandLine.Job := match CommandLine.parse args with
    | .job j => some j
    | _ => none
  let entry ← match job?.bind CommandLine.Job.path? with
    | some path => readEntry path
    | none => pure none
  let environment ← readVariables
  let bits ← randomBits
  let styled ← (← IO.getStdout).isTty
  let p := CommandLine.run {
    args := args
    environment := environment
    styled := styled
    entryAt := fun _ => entry
    tokens := Uuid.source fun n => bits + n
    answers := (job?.map fun j => unreachable environment j.flags).getD []
    stop := none }
  let stderr ← IO.getStderr
  p.log.forM fun line => writeText stderr (line ++ [0x0A])
  writeText (← IO.getStdout) p.process.stdout
  writeText stderr p.process.stderr
  return ((p.process.exit.getD 0).toNat).toUInt32
