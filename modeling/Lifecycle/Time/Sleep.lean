import Lifecycle.Time.Wait

/- One wait, moment by moment.

   A wait looks at the signal, sets a timer for the next slice and, if it was handed a
   signal, listens for its abort. When the timer fires the listener is removed, and the
   next slice begins in a job after that; in between neither of them is there. An abort
   in a slice takes the timer back and breaks the slice off, and the wait is settled in a
   job after that. Time passes only while a timer is set, at most until it is due; an
   abort may come at any moment. -/
namespace Lifecycle

namespace Sleep

/-- Where a wait stands: before a slice, with so much left to wait for; in a slice, with its timer due
    at a time and so much left after it; after a slice that was broken off; or settled. -/
inductive Phase where
  | ready (rest : Double)
  | asleep (due : Nat) (rest : Double)
  | stopped
  | settled (result : WaitEnd)

/-- What can happen to a wait: it begins its next slice, time passes, its timer fires, its signal is
    aborted, or it takes notice that a slice was broken off. -/
inductive Moment where
  | resumes
  | passes (time : Nat)
  | fires
  | aborts (reason : AbortReason)
  | rejects

end Sleep

/-- A wait under way: the time since it began, whether it was handed a signal and the signal as it is,
    every delay that it has set, and how many timers and listeners of it there are. -/
structure Sleep where
  now : Nat
  listens : Bool
  signal : Signal
  delays : List Double
  timers : Nat
  listeners : Nat
  phase : Sleep.Phase

namespace Sleep

def start (listens : Bool) (milliseconds : Double) : Sleep :=
  ⟨0, listens, none, [], 0, 0, .ready milliseconds⟩

def isSettled (s : Sleep) : Bool :=
  match s.phase with
  | .settled _ => true
  | _ => false

def settle (s : Sleep) (result : WaitEnd) : Sleep := { s with phase := .settled result }

def enter (s : Sleep) (rest : Double) : Sleep :=
  { s with
    delays := s.delays ++ [Wait.slice rest]
    timers := s.timers + 1
    listeners := s.listeners + s.listens.toNat
    phase := .asleep (s.now + Clock.length (Wait.slice rest)) (rest.sub (Wait.slice rest)) }

/-- Begin the next slice, unless the signal is aborted or nothing is left to wait for. -/
def resume (s : Sleep) (rest : Double) : Sleep :=
  match s.signal with
  | some reason => s.settle (.cancelled (.cancelledBy reason))
  | none => if Double.zero.lt rest then s.enter rest else s.settle .over

/-- The end of a slice whose timer has fired. -/
def fire (s : Sleep) (rest : Double) : Sleep :=
  { s with
    timers := s.timers - 1
    listeners := s.listeners - s.listens.toNat
    phase := .ready rest }

/-- An abort of the signal. Only in a slice there is a listener for it, which is called once. -/
def abort (s : Sleep) (reason : AbortReason) : Sleep :=
  match s.phase with
  | .asleep _ _ =>
    { s with
      signal := some reason
      timers := s.timers - 1
      listeners := s.listeners - s.listens.toNat
      phase := .stopped }
  | _ => { s with signal := some reason }

/-- What a moment makes of a wait, if it can come. -/
def step (s : Sleep) : Moment → Option Sleep
  | .resumes =>
    match s.phase with
    | .ready rest => some (s.resume rest)
    | _ => none
  | .passes time =>
    match s.phase with
    | .asleep due _ => if s.now < time ∧ time ≤ due then some { s with now := time } else none
    | _ => none
  | .fires =>
    match s.phase with
    | .asleep due rest => if s.now = due then some (s.fire rest) else none
    | _ => none
  | .aborts reason => if s.listens && s.signal.isNone then some (s.abort reason) else none
  | .rejects =>
    match s.phase, s.signal with
    | .stopped, some reason => some (s.settle (.cancelled (.cancelledBy reason)))
    | _, _ => none

/-- What moments one after the other make of a wait. -/
def after (s : Sleep) : List Moment → Option Sleep
  | [] => some s
  | m :: ms => (s.step m).bind fun s => s.after ms

end Sleep

end Lifecycle
