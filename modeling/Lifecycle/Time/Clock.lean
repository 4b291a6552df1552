import Lifecycle.Run.Failure

/- Virtual time.

   Time passes only when nothing else can proceed: then either the abort that is
   planned falls due, or the timer that is set fires. The clock keeps every delay
   that was ever set, how many timers have fired and how many are still pending, and
   the signal. Times are counted in steps of 2^-1074 milliseconds, in which every
   delay is whole. -/
namespace Lifecycle

/-- When a signal is to be aborted: after a number of timers, or at a point in time. -/
inductive AbortMoment where
  | afterTimers (count : Nat)
  | atTime (steps : Nat)
deriving DecidableEq

/-- What ends a stretch of time in which nothing else can proceed. -/
inductive Passing where
  | fired
  | aborted (reason : AbortReason)

/-- A virtual clock with its timers and its signal. -/
structure Clock where
  now : Nat
  delays : List Double
  fired : Nat
  pending : Nat
  planned : Option (AbortMoment × AbortReason)
  signal : Signal

namespace Clock

/-- A clock at the start, with a signal that may be aborted by now or later. -/
def start (signal : Signal) (planned : Option (AbortMoment × AbortReason)) : Clock :=
  ⟨0, [], 0, 0, planned, signal⟩

/-- The length of a delay in steps; what is no positive number takes no time. -/
def length (delay : Double) : Nat := (delay.steps?.getD 0).toNat

def set (c : Clock) (delay : Double) : Clock :=
  { c with delays := c.delays ++ [delay], pending := c.pending + 1 }

def clear (c : Clock) : Clock := { c with pending := c.pending - 1 }

/-- The reason of the planned abort, if it falls before a timer of that delay fires. -/
def due? (c : Clock) (delay : Double) : Option AbortReason :=
  match c.planned with
  | some (.afterTimers count, reason) => if count ≤ c.fired then some reason else none
  | some (.atTime steps, reason) => if steps < c.now + length delay then some reason else none
  | none => none

/-- The time of the planned abort, for one that has a time. -/
def abortTime (c : Clock) : Nat :=
  match c.planned with
  | some (.atTime steps, _) => max c.now steps
  | _ => c.now

/-- Let time pass until the timer of that delay fires or the signal is aborted. -/
def pass (c : Clock) (delay : Double) : Clock × Passing :=
  match c.due? delay with
  | some reason =>
    ({ c with now := c.abortTime, planned := none, signal := some reason }, .aborted reason)
  | none =>
    ({ c with now := c.now + length delay, fired := c.fired + 1, pending := c.pending - 1 }, .fired)

end Clock

end Lifecycle
