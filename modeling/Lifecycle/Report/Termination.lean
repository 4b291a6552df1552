import Lifecycle.Report.Format

/- Showing a result and ending the process.

   A success is shown and the process goes on to its natural end. A failure is shown
   and the process exits with its status, unless the terminator refuses: then it
   crashes with an error that names the exit it was asked for. -/
namespace Lifecycle

/-- Who ends the process: no one but the process itself, an adapter that exits, or one that
    refuses to. -/
inductive Terminator where
  | direct
  | exiting
  | refusing
deriving DecidableEq

/-- What a process wrote, the status it exited with and the error it crashed with. -/
structure ProcessTrace where
  stdout : Text
  stderr : Text
  exit : Option Int
  crash : Option Text
deriving DecidableEq

namespace ProcessTrace

def empty : ProcessTrace := ⟨[], [], none, none⟩

/-- A result on its stream; an empty text is not written. -/
def ofResult (styled : Bool) (r : CommandResult) : ProcessTrace :=
  match r.render styled, r with
  | [], _ => empty
  | t, .success _ => { empty with stdout := t ++ [0x0A] }
  | t, .failure .. => { empty with stderr := t ++ [0x0A] }

/-- The error of a terminator that refuses to exit. -/
def refusal (e : ProcessExit) : Text :=
  "[ProcessTerminator] terminate(" ++
    (match e with
      | .success => ("success" : Text)
      | .failure (some n) => "failure:" ++ Text.ofInt n
      | .failure none => "failure:undefined"
      | .other kind _ => kind) ++ ")"

/-- The error of a terminator that does not know an exit. -/
def unknownExit (shown : Text) : Text := "Unhandled variant: " ++ shown

def terminate (terminator : Terminator) (e : ProcessExit) (t : ProcessTrace) : ProcessTrace :=
  match terminator, e with
  | .refusing, e => { t with crash := some (refusal e) }
  | _, .success => { t with exit := some 0 }
  | _, .failure status => { t with exit := status }
  | _, .other _ shown => { t with crash := some (unknownExit shown) }

/-- Show a result and end the process if it is a failure. -/
def interpret (terminator : Terminator) (styled : Bool) (r : CommandResult) : ProcessTrace :=
  match r with
  | .success _ => ofResult styled r
  | .failure exit _ => terminate terminator exit.processExit (ofResult styled r)

end ProcessTrace

end Lifecycle
