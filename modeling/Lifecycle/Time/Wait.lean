import Lifecycle.Json.Conversion
import Lifecycle.Time.Clock

/- Waiting for a number of milliseconds.

   A wait that is longer than one timer can run is served by timers one after the
   other. An abort ends the wait at once and takes its timer back. The length may be
   given as a value, which counts by its amount. -/
namespace Lifecycle

inductive WaitEnd where
  | over
  | cancelled (error : CallError)
  | unfinished

namespace Wait

/-- The longest delay of one timer, in milliseconds. -/
def maxDelay : Nat := Nat.pow 2 31 - 1

/-- The next part of a wait that one timer can serve. -/
def slice (milliseconds : Double) : Double := .min milliseconds (.ofNat maxDelay)

/-- Wait, with at most as many timers as the fuel allows. -/
def waitWith : Nat → Clock → Double → Clock × WaitEnd
  | 0, c, _ => (c, .unfinished)
  | fuel + 1, c, milliseconds =>
    match c.signal with
    | some reason => (c, .cancelled (.cancelledBy reason))
    | none =>
      if Double.zero.lt milliseconds then
        match (c.set (slice milliseconds)).pass (slice milliseconds) with
        | (c, .aborted reason) => (c.clear, .cancelled (.cancelledBy reason))
        | (c, .fired) => waitWith fuel c (milliseconds.sub (slice milliseconds))
      else (c, .over)

/-- The number of timers that a wait can take. -/
def timers (c : Clock) (milliseconds : Double) : Nat :=
  match c.planned, milliseconds.steps? with
  | some (.afterTimers count, _), _ => count + 2
  | _, some steps => 2 * (steps.toNat / (maxDelay * Double.stepsPerOne)) + 3
  | _, none => 1

def wait (c : Clock) (milliseconds : Double) : Clock × WaitEnd :=
  waitWith (timers c milliseconds) c milliseconds

/-- Wait for as long as a value says. The signal is looked at before the value; a big integer is
    refused where there is time to wait. -/
def waitFor (c : Clock) (v : Value) : Except ConversionError (Clock × WaitEnd) :=
  if c.signal.isSome then .ok (wait c .zero)
  else do
    let milliseconds ← v.amount
    if v.isBigint && Double.zero.lt milliseconds then .error .bigintAsNumber
    else .ok (wait c milliseconds)

end Wait

end Lifecycle
