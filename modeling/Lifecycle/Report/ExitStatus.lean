import Lifecycle.Text

/- Exit statuses of the command line.

   0 to 2 are the usual ones; 3 to 5 tell how a run ended, and 127 is a crash
   outside any command. A kind of any other name has no number. -/
namespace Lifecycle

/-- How a command ends, as seen by the shell. -/
inductive ExitStatus where
  | success
  | generalError
  | misuse
  | handlerFailed
  | budgetExhausted
  | invocationError
  | unhandled
  | unnumbered (kind : Text)
deriving DecidableEq

namespace ExitStatus

def all : List ExitStatus :=
  [.success, .generalError, .misuse, .handlerFailed, .budgetExhausted, .invocationError, .unhandled]

def kind : ExitStatus → Text
  | .success => "success"
  | .generalError => "general_error"
  | .misuse => "misuse"
  | .handlerFailed => "handler_failed"
  | .budgetExhausted => "budget_exhausted"
  | .invocationError => "invocation_error"
  | .unhandled => "unhandled"
  | .unnumbered kind => kind

def ofKind (kind : Text) : ExitStatus :=
  (all.find? fun s => s.kind == kind).getD (.unnumbered kind)

def number? : ExitStatus → Option Nat
  | .success => some 0
  | .generalError => some 1
  | .misuse => some 2
  | .handlerFailed => some 3
  | .budgetExhausted => some 4
  | .invocationError => some 5
  | .unhandled => some 127
  | .unnumbered _ => none

end ExitStatus

/-- How a process is asked to end: well, with a status, or in a way of another kind, which is
    kept with the JSON text that shows it. -/
inductive ProcessExit where
  | success
  | failure (status : Option Int)
  | other (kind shown : Text)
deriving DecidableEq

/-- The end of the process that belongs to a status. -/
def ExitStatus.processExit (s : ExitStatus) : ProcessExit :=
  if s = .success then .success else .failure (s.number?.map Int.ofNat)

end Lifecycle
