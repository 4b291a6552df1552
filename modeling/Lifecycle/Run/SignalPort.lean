import Lifecycle.Run.Shutdown

/- The port at which a process hears its signals.

   A handler is registered for one signal and may be taken off again. When the signal is raised, the
   port calls the handlers that are registered for it, and none of them is registered any longer. A watch
   registers one handler for each signal it listens for, and each of them aborts the one signal of the
   watch with a reason of its own. -/
namespace Lifecycle

/-- A handler, known by a number that no other handler has, and the signal that it is registered for. -/
structure Registration where
  handler : Nat
  signal : StopSignal
deriving DecidableEq

/-- A port to the signals of a process, which calls a handler only while it is registered and takes it
    off when it calls it. -/
structure SignalPort where
  State : Type
  idle : State
  registered : State → List Registration
  once : Registration → State → State
  unsubscribe : Registration → State → State
  raise : StopSignal → State → State × List Nat
  registered_idle : registered idle = []
  mem_once (r q : Registration) (p : State) : r ∈ registered (once q p) ↔ r = q ∨ r ∈ registered p
  mem_unsubscribe (r q : Registration) (p : State) :
    r ∈ registered (unsubscribe q p) ↔ r ≠ q ∧ r ∈ registered p
  mem_raise (s : StopSignal) (r : Registration) (p : State) :
    r ∈ registered (raise s p).1 ↔ r.signal ≠ s ∧ r ∈ registered p
  mem_delivered (s : StopSignal) (n : Nat) (p : State) : n ∈ (raise s p).2 ↔ ⟨n, s⟩ ∈ registered p

/-- A port that keeps a table of its registrations. -/
def SignalPort.table : SignalPort where
  State := List Registration
  idle := []
  registered p := p
  once q p := p ++ [q]
  unsubscribe q p := p.filter (· ≠ q)
  raise s p := (p.filter (·.signal ≠ s), (p.filter (·.signal = s)).map (·.handler))
  registered_idle := rfl
  mem_once r q p := by simp [or_comm]
  mem_unsubscribe r q p := by simp [and_comm]
  mem_raise s r p := by simp [and_comm]
  mem_delivered s n p := by
    simp only [List.mem_map, List.mem_filter, decide_eq_true_eq]
    constructor
    · rintro ⟨⟨_, _⟩, ⟨registered, rfl⟩, rfl⟩
      exact registered
    · intro registered
      exact ⟨⟨n, s⟩, ⟨registered, rfl⟩, rfl⟩

/-- A watch at a port: the handlers that it registered, and its signal. -/
structure PortWatch where
  handlers : List Registration
  signal : Signal

/-- A handler is called. If it is the watch's own, it aborts the signal of the watch. -/
def PortWatch.hear (w : PortWatch) (n : Nat) : PortWatch :=
  match w.handlers.find? (·.handler == n) with
  | some r => { w with signal := w.signal.or (some r.signal.reason) }
  | none => w

/-- What happens to the watches at a port. -/
inductive PortEvent where
  | begun (watched : List StopSignal)
  | raised (s : StopSignal)
  | disposed (index : Nat)
deriving DecidableEq

/-- All watches at a port, and how many handlers they have registered so far. -/
structure Watchers (port : SignalPort) where
  state : port.State
  issued : Nat
  watches : List PortWatch

namespace Watchers

variable {port : SignalPort}

def idle (port : SignalPort) : Watchers port := ⟨port.idle, 0, []⟩

/-- The registrations of a watch, whose handlers are numbered from the next number on. -/
def registrations (first : Nat) (watched : List StopSignal) : List Registration :=
  watched.mapIdx fun i s => ⟨first + i, s⟩

def begin (ws : Watchers port) (watched : List StopSignal) : Watchers port :=
  let handlers := registrations ws.issued watched
  { state := handlers.foldl (fun p r => port.once r p) ws.state
    issued := ws.issued + watched.length
    watches := ws.watches ++ [⟨handlers, none⟩] }

/-- A process signal is raised: the handlers that the port calls run in its order. -/
def raise (ws : Watchers port) (s : StopSignal) : Watchers port :=
  let (state, delivered) := port.raise s ws.state
  { ws with
    state := state
    watches := delivered.foldl (fun watches n => watches.map (·.hear n)) ws.watches }

def dispose (ws : Watchers port) (index : Nat) : Watchers port :=
  match ws.watches[index]? with
  | some w => { ws with state := w.handlers.foldl (fun p r => port.unsubscribe r p) ws.state }
  | none => ws

def step (ws : Watchers port) : PortEvent → Watchers port
  | .begun watched => ws.begin watched
  | .raised s => ws.raise s
  | .disposed index => ws.dispose index

def after (port : SignalPort) (history : List PortEvent) : Watchers port := history.foldl step (idle port)

end Watchers

end Lifecycle
