import Lifecycle.Report.ExitStatus

/- Results of commands: what is to be said, apart from how it is shown. -/
namespace Lifecycle

/-- What a command has to say. The body is shown as it is. -/
structure Output where
  message : Text
  details : Option (List Text)
  body : Option Text
  warnings : Option (List Text)
  suggestions : Option (List Text)
deriving DecidableEq

namespace Output

def ofMessage (message : Text) : Output := ⟨message, none, none, none, none⟩

end Output

inductive CommandResult where
  | success (output : Option Output)
  | failure (exit : ExitStatus) (output : Output)
deriving DecidableEq

namespace CommandResult

def misuse (output : Output) : CommandResult := .failure .misuse output

def exitStatus : CommandResult → ExitStatus
  | .success _ => .success
  | .failure exit _ => exit

end CommandResult

def nonempty? {α : Type} (xs : List α) : Option (List α) := if xs.isEmpty then none else some xs

end Lifecycle
