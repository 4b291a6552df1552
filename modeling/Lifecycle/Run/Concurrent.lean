import Lifecycle.Run.Script

/- Any number of runs on one loop.

   The loop object has a handler client, a sleeper and a logger, which all of its runs
   share; everything else belongs to one run. A run moves when its call is answered or
   its wait is over, and its own signal may be aborted at any moment. What the shared
   collaborators have seen is one record, in order, of the acts of all runs. -/
namespace Lifecycle

/-- What an answer makes of a call under a signal; nothing yet, if the handler hangs and nobody has
    aborted the call. -/
def Answer.under (signal : Signal) : Answer → Option CallResult
  | .respond response => some (.responded response)
  | .fail e => some (.failed e)
  | .hang => signal.map fun reason => .failed (.cancelledBy reason)
  | .crash message => some (.crashed (.thrown message))

/-- A run among others: what it was started with, where it stands, the answers its calls have got, how
    many of its waits are over, and when and why its signal was aborted. -/
structure Lane where
  plan : Plan
  budget : Budget
  run : Run
  answers : List Answer
  woken : Nat
  abort : Option (AbortPoint × AbortReason)

/-- What can happen to one run. -/
inductive LaneEvent where
  | aborted (reason : AbortReason)
  | answered (a : Answer)
  | woken

namespace Lane

/-- A run that is started with a signal, which may be aborted already. -/
def start (plan : Plan) (budget : Budget) (signal : Signal) : Lane where
  plan := plan
  budget := budget
  run := .start plan budget signal
  answers := []
  woken := 0
  abort := signal.map (.start, ·)

/-- The signal of a run as it is now. -/
def signal (lane : Lane) : Signal := lane.abort.map (·.2)

/-- The call or the wait that is under way. -/
def moment (lane : Lane) : AbortPoint :=
  match lane.run.demand with
  | .call => .call (lane.answers.length + 1)
  | .wait _ => .wait (lane.woken + 1)
  | _ => .never

/-- A signal is aborted once; what is under way has to notice it by itself. -/
def abortNow (lane : Lane) (reason : AbortReason) : Lane :=
  { lane with abort := lane.abort.or (some (lane.moment, reason)) }

def answer (lane : Lane) (a : Answer) : Lane :=
  match lane.run.demand with
  | .call =>
    match a.under lane.signal with
    | some result =>
      { lane with run := lane.run.resumeCall result lane.signal, answers := lane.answers ++ [a] }
    | none => lane
  | _ => lane

def wake (lane : Lane) : Lane :=
  match lane.run.demand with
  | .wait _ =>
    { lane with
      run := lane.run.resumeWait (lane.signal.map .cancelledBy) lane.signal
      woken := lane.woken + 1 }
  | _ => lane

/-- A run after an event; one that does not concern it changes nothing. -/
def step (lane : Lane) : LaneEvent → Lane
  | .aborted reason => lane.abortNow reason
  | .answered a => lane.answer a
  | .woken => lane.wake

end Lane

/-- All runs of one loop, in the order of their starts, and what the collaborators that they share
    have seen, each act with the number of its run. -/
structure Loop where
  lanes : List Lane
  record : List (Nat × Happening)

/-- What can happen on a loop. -/
inductive LoopEvent where
  | started (plan : Plan) (budget : Budget) (signal : Signal)
  | happened (index : Nat) (event : LaneEvent)

namespace Loop

def idle : Loop := ⟨[], []⟩

def start (loop : Loop) (lane : Lane) : Loop where
  lanes := loop.lanes ++ [lane]
  record := loop.record ++ lane.run.trace.map (loop.lanes.length, ·)

/-- Move one run. What it adds to its trace goes to the shared collaborators. -/
def move (loop : Loop) (index : Nat) (event : LaneEvent) : Loop :=
  match loop.lanes[index]? with
  | some lane =>
    { lanes := loop.lanes.set index (lane.step event)
      record := loop.record ++
        ((lane.step event).run.trace.drop lane.run.trace.length).map (index, ·) }
  | none => loop

def step (loop : Loop) : LoopEvent → Loop
  | .started plan budget signal => loop.start (.start plan budget signal)
  | .happened index event => loop.move index event

def after (history : List LoopEvent) : Loop := history.foldl step idle

/-- What the shared collaborators have seen of one run. -/
def seenOf (loop : Loop) (index : Nat) : List Happening :=
  loop.record.filterMap fun act => if act.1 = index then some act.2 else none

end Loop

/-- What the runs of a history were started with, in order. -/
def startsOf (history : List LoopEvent) : List (Plan × Budget × Signal) :=
  history.filterMap fun
    | .started plan budget signal => some (plan, budget, signal)
    | .happened .. => none

end Lifecycle
