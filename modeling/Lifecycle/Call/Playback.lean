import Lifecycle.Call.Exchange
import Lifecycle.Run.Machine
import Lifecycle.Time.Wait

/- Runs against scripted endpoints in virtual time.

   An endpoint answers a call at once or never. Every call has its deadline and
   every wait its timers on one clock, which decides what ends a call that is never
   answered. -/
namespace Lifecycle

/-- What an endpoint does with a call. -/
inductive EndpointAnswer where
  | reply (reply : Reply)
  | refuse (refusal : Value)
  | silence

/-- Scripted endpoints: one answer per call, the last one again and again. -/
structure Endpoint where
  timeoutMs : Double
  answers : List EndpointAnswer

/-- A clock and the requests that were sent so far. -/
structure Playback where
  clock : Clock
  sent : List (Target × Request)

namespace Playback

/-- The answer to a call, counted from zero. -/
def answer (e : Endpoint) (n : Nat) : EndpointAnswer :=
  match e.answers[n]? with
  | some a => a
  | none => e.answers.getLast?.getD .silence

/-- The event that ends a call that is never answered. -/
def eventOf : Passing → CallEvent
  | .fired => .deadline
  | .aborted reason => .aborted reason

/-- Take back the deadline of a call that something else has settled. -/
def release (c : Clock) : CallEvent → Clock
  | .deadline => c
  | _ => c.clear

/-- What a call that is under way meets first, and the clock afterwards. -/
def firstEvent (c : Clock) (timeoutMs : Double) : EndpointAnswer → Clock × CallEvent
  | .reply r => (c, .answered r)
  | .refuse v => (c, .refused v)
  | .silence =>
    let (c, passing) := c.pass timeoutMs
    (c, eventOf passing)

def call (e : Endpoint) (p : Playback) (target : Target) (request : Request) :
    Playback × CallResult :=
  let x := Exchange.begin target e.timeoutMs p.clock.signal
  match x.result with
  | some r => (p, r)
  | none =>
    let (c, event) := firstEvent (p.clock.set e.timeoutMs) e.timeoutMs (answer e p.sent.length)
    (⟨release c event, p.sent ++ [(target, request)]⟩, x.settlement event)

/-- Serve one demand of a run, if it can be served. -/
def serve (e : Endpoint) (p : Playback) (r : Run) : Option (Playback × Run) :=
  match r.demand with
  | .call =>
    let (p, reply) := call e p r.target r.state.request
    some (p, r.resumeCall reply p.clock.signal)
  | .wait milliseconds =>
    match Wait.wait p.clock milliseconds with
    | (c, .over) => some ({ p with clock := c }, r.resumeWait none c.signal)
    | (c, .cancelled error) => some ({ p with clock := c }, r.resumeWait (some error) c.signal)
    | (_, .unfinished) => none
  | .nothing => none
  | .crashed _ => none

/-- Play a run against endpoints, for as many demands as the fuel allows. -/
def play (e : Endpoint) (fuel : Nat) (p : Playback) (r : Run) : Playback × Run :=
  Run.drive (serve e) fuel p r

/-- Demands that a run can make before its endpoint repeats its last answer for good. -/
def demands (e : Endpoint) (c : Clock) (budget : Budget) : Nat :=
  let aborts : Nat := match c.planned with
    | some (.afterTimers count, _) => count
    | _ => 0
  2 * (e.answers.length + budget.calls + aborts) + 4

def perform (e : Endpoint) (c : Clock) (plan : Plan) (budget : Budget) : Playback × Run :=
  play e (demands e c budget) ⟨c, []⟩ (.start plan budget c.signal)

end Playback

end Lifecycle
