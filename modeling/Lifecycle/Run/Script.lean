import Lifecycle.Run.Machine

/- Playing runs against a scripted handler.

   A script gives one answer per call, its last one again and again. A signal may be
   aborted before a run, during a call or during a wait. The session keeps what the
   handler and the sleeper have seen, over any number of runs. -/
namespace Lifecycle

/-- What a scripted call comes to. -/
inductive Answer where
  | respond (response : Value)
  | fail (error : CallError)
  | hang
  | crash (message : Text)

/-- When a signal is aborted: calls and waits count from one. -/
inductive AbortPoint where
  | start
  | call (n : Nat)
  | wait (n : Nat)
  | never
deriving DecidableEq

/-- A scripted handler and the signal that goes with it. -/
structure Script where
  answers : List Answer
  abort : Option (AbortPoint × AbortReason)

namespace Script

/-- The answer to a call, counted from zero. -/
def answer (s : Script) (n : Nat) : Answer :=
  match s.answers[n]? with
  | some a => a
  | none => s.answers.getLast?.getD .hang

def signalAfter (s : Script) (point : AbortPoint) (signal : Signal) : Signal :=
  match signal, s.abort with
  | none, some (moment, reason) => if moment = point then some reason else none
  | signal, _ => signal

end Script

/-- What the handler and the sleeper have seen so far, and the signal. -/
structure Session where
  calls : List (Target × Request)
  waits : List Double
  signal : Signal

namespace Session

def begin (s : Script) : Session where
  calls := []
  waits := []
  signal := s.signalAfter .start none

def serve (script : Script) (s : Session) (r : Run) : Option (Session × Run) :=
  match r.demand with
  | .call =>
    let n := s.calls.length
    let signal := script.signalAfter (.call (n + 1)) s.signal
    let s := { s with calls := s.calls ++ [(r.target, r.state.request)], signal := signal }
    match script.answer n with
    | .respond v => some (s, r.resumeCall (.responded v) signal)
    | .fail e => some (s, r.resumeCall (.failed e) signal)
    | .hang => signal.map fun reason => (s, r.resumeCall (.failed (.cancelledBy reason)) signal)
    | .crash message => some (s, r.resumeCall (.crashed (.thrown message)) signal)
  | .wait ms =>
    let signal := script.signalAfter (.wait (s.waits.length + 1)) s.signal
    let s := { s with waits := s.waits ++ [ms], signal := signal }
    some (s, r.resumeWait (signal.map .cancelledBy) signal)
  | .nothing => none
  | .crashed _ => none

/-- Play a run against a script, for as many demands as the fuel allows. -/
def play (script : Script) (fuel : Nat) (s : Session) (r : Run) : Session × Run :=
  Run.drive (serve script) fuel s r

/-- Demands that a run can make before its script repeats its last answer for good. -/
def demands (script : Script) (budget : Budget) : Nat :=
  let abort : Nat := match script.abort with
    | some (.call n, _) => n
    | some (.wait n, _) => n
    | _ => 0
  2 * (script.answers.length + budget.calls + abort) + 4

def perform (script : Script) (s : Session) (plan : Plan) (budget : Budget) : Session × Run :=
  play script (demands script budget) s (.start plan budget s.signal)

end Session

end Lifecycle
