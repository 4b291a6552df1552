import Lifecycle.Run.Failure

/- Aborting a run when the process is asked to stop.

   A watch listens for some of the process signals, by default for the two that ask
   a process to stop. The first one that is raised aborts its signal, with a reason
   that names it; later ones change nothing. A listener is gone once it has heard
   its signal or the watch is disposed of. -/
namespace Lifecycle

/-- A signal that a process can hear: the two that ask it to stop, or one of another name. -/
inductive StopSignal where
  | interrupt
  | terminate
  | other (name : Text)
deriving DecidableEq

namespace StopSignal

def all : List StopSignal := [.interrupt, .terminate]

def name : StopSignal → Text
  | .interrupt => "SIGINT"
  | .terminate => "SIGTERM"
  | .other name => name

def ofName (t : Text) : StopSignal := (all.find? fun s => s.name == t).getD (.other t)

/-- The reason of an abort that a signal causes. -/
def reason (s : StopSignal) : AbortReason := .error ("received " ++ s.name) []

end StopSignal

/-- A watch: what it still listens for, and its signal. -/
structure Watch where
  listening : List StopSignal
  signal : Signal

namespace Watch

def begin (watched : List StopSignal) : Watch := ⟨watched, none⟩

def raise (w : Watch) (s : StopSignal) : Watch :=
  if w.listening.contains s then
    { listening := w.listening.filter (· != s), signal := w.signal.or (some s.reason) }
  else w

def dispose (w : Watch) : Watch := { w with listening := [] }

end Watch

inductive WatchEvent where
  | raised (s : StopSignal)
  | disposed
deriving DecidableEq

namespace Watch

def step (w : Watch) : WatchEvent → Watch
  | .raised s => w.raise s
  | .disposed => w.dispose

def after (w : Watch) (history : List WatchEvent) : Watch := history.foldl step w

end Watch

/-! ## All watches of a process -/

namespace Watches

def raise (ws : List Watch) (s : StopSignal) : List Watch := ws.map (·.raise s)

def dispose (ws : List Watch) (index : Nat) : List Watch := ws.modify index Watch.dispose

def listeners (ws : List Watch) (s : StopSignal) : Nat := (ws.flatMap Watch.listening).count s

end Watches

end Lifecycle
