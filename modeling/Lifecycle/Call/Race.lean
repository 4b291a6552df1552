import Lifecycle.Call.Exchange
import Lifecycle.Time.Wait

/- One call of a handler, job by job.

   A function that reaches the endpoint is handed in. It is called in a job of its own, and
   its promise races the signal that it is handed, which is aborted by the deadline and by
   the caller's signal. What begins a turn, a settlement, a deadline or an abort, leaves jobs
   behind, each of which may add others at the end; a turn is over when none is left. The
   race is decided by the first job that reaches it. The deadline is taken back and the
   caller's signal is listened to no more in a job after that, and only then the error is
   told from the signals as they are.

   Times count from the call, in steps of a clock. -/
namespace Lifecycle

/-- How the promise of a function is settled. -/
inductive Settlement where
  | output (reply : Reply)
  | refusal (value : Value)

/-- How a function settles its promise when its signal is aborted: in the same turn, after some
    jobs of its own, or after a delay. -/
inductive Reaction where
  | soon (jobs : Nat) (x : Settlement)
  | later (delay : Nat) (x : Settlement)

/-- What a function does when it is called. It throws, or it gives a promise, which it settles by
    itself after some time or never, and may react to an abort of its signal. -/
inductive Conduct where
  | throws (value : Value)
  | promises (own : Option (Nat × Settlement)) (reaction : AbortReason → Option Reaction)

/-- A function that reaches an endpoint. Its signal may be aborted when it is called. -/
abbrev Transport := Signal → Conduct

inductive Job where
  | send
  | settle (jobs : Nat) (x : Settlement)
  | follow (x : Settlement)
  | race (x : Settlement)
  | finish (x : Settlement)
  | classify (x : Settlement)

inductive Turn where
  | settles (x : Settlement)
  | deadline
  | aborts (reason : AbortReason)

namespace Turn

def isDeadline : Turn → Bool
  | .deadline => true
  | _ => false

end Turn

/-- Turns to come, in the order of their times. -/
abbrev Agenda := List (Nat × Turn)

namespace Agenda

/-- Enter a turn behind those of its time. -/
def enter (time : Nat) (turn : Turn) : Agenda → Agenda
  | [] => [(time, turn)]
  | entry :: rest =>
    if time < entry.1 then (time, turn) :: entry :: rest else entry :: enter time turn rest

end Agenda

/-- A call under way: the caller's signal and the one that the function is handed, the turns to come
    and the jobs of this one, how often the function was called and how it reacts, whether its
    promise is settled and whether the race is decided, and every result that was given. -/
structure Race where
  target : Target
  timeoutMs : Double
  now : Nat
  signal : Signal
  controller : Signal
  timedOut : Bool
  listening : Bool
  agenda : Agenda
  jobs : List Job
  sent : Nat
  reaction : AbortReason → Option Reaction
  answered : Bool
  raced : Bool
  results : List CallResult

namespace Race

/-- The time of a deadline. A timer counts whole milliseconds, and a delay that is out of its range
    for one. -/
def deadlineTime (timeoutMs : Double) : Nat :=
  if timeoutMs.reaches 1 && timeoutMs.le (.ofNat Wait.maxDelay) then
    Clock.length timeoutMs / Double.stepsPerOne * Double.stepsPerOne
  else Double.stepsPerOne

/-- A call that is made under a signal. If it is aborted by now, the function is never called. -/
def begin (target : Target) (timeoutMs : Double) (signal : Signal) : Race :=
  { target, timeoutMs, signal
    now := 0
    controller := none
    timedOut := false
    listening := signal.isNone
    agenda := if signal.isNone then [(deadlineTime timeoutMs, .deadline)] else []
    jobs := if signal.isNone then [.send] else []
    sent := 0
    reaction := fun _ => none
    answered := false
    raced := signal.isSome
    results := signal.toList.map fun reason => .failed (.cancelledBy reason) }

def deadlineSet (r : Race) : Bool := r.agenda.any (·.2.isDeadline)

def queue (r : Race) (jobs : List Job) : Race := { r with jobs := r.jobs ++ jobs }

def schedule (r : Race) (delay : Nat) (turn : Turn) : Race :=
  { r with agenda := r.agenda.enter (r.now + delay) turn }

/-- Settle the promise of the function, unless it is settled already. -/
def answer (r : Race) (x : Settlement) : Race :=
  if r.answered then r else { r with answered := true }.queue [.follow x]

/-- Settle the promise of the function after some jobs. -/
def settle (r : Race) (x : Settlement) : Nat → Race
  | 0 => r.answer x
  | jobs + 1 => r.queue [.settle jobs x]

def react (r : Race) : Option Reaction → Race
  | none => r
  | some (.soon jobs x) => r.settle x jobs
  | some (.later delay x) => r.schedule delay (.settles x)

/-- Abort the signal of the function. The race has listened to it first. -/
def interrupt (r : Race) (reason : AbortReason) : Race :=
  match r.controller with
  | some _ => r
  | none =>
    { r with controller := some reason }.queue [.race (.refusal reason)] |>.react (r.reaction reason)

/-- The reason with which a deadline aborts the signal of the function. -/
def deadlineReason (timeoutMs : Double) : AbortReason :=
  .error ("No response within " ++ timeoutMs.toText ++ "ms") []

/-- The caller's signal is aborted. A listener hears that once. -/
def abort (r : Race) (reason : AbortReason) : Race :=
  match r.signal with
  | some _ => r
  | none =>
    if r.listening then { r with signal := some reason, listening := false }.interrupt reason
    else { r with signal := some reason }

/-- What has decided the race comes to, told from the signals as they are. -/
def classify (r : Race) : Settlement → CallResult
  | .output reply => .ofExcept reply.response
  | .refusal value =>
    match r.signal with
    | some reason => .failed (.cancelledBy reason)
    | none =>
      if r.timedOut then .failed (Exchange.timeoutError r.timeoutMs)
      else Refusal.result r.target value

def send (f : Transport) (r : Race) : Race :=
  let r := { r with sent := r.sent + 1 }
  match f r.controller with
  | .throws value => r.queue [.race (.refusal value)]
  | .promises own reaction =>
    let r := { r with reaction := reaction }
    match own with
    | none => r
    | some (0, x) => r.answer x
    | some (delay + 1, x) => r.schedule (delay + 1) (.settles x)

def perform (f : Transport) (r : Race) : Job → Race
  | .send => r.send f
  | .settle jobs x => r.settle x jobs
  | .follow x => r.queue [.race x]
  | .race x => if r.raced then r else { r with raced := true }.queue [.finish x]
  | .finish x =>
    { r with agenda := r.agenda.filter (!·.2.isDeadline), listening := false }.queue [.classify x]
  | .classify x => { r with results := r.results ++ [r.classify x] }

/-! ## Turns -/

end Race

/-- The jobs that a job can lead to, itself included. -/
def Job.load : Job → Nat
  | .classify _ => 1
  | .finish _ => 2
  | .race _ => 3
  | .follow _ => 4
  | .send => 5
  | .settle jobs _ => jobs + 5

def Job.loads : List Job → Nat
  | [] => 0
  | job :: rest => job.load + loads rest

theorem Job.loads_append (jobs more : List Job) : loads (jobs ++ more) = loads jobs + loads more := by
  induction jobs with
  | nil => exact (Nat.zero_add _).symm
  | cons job rest ih => rw [List.cons_append, loads, loads, ih, Nat.add_assoc]

def Job.isSend : Job → Bool
  | .send => true
  | _ => false

namespace Race

def load (r : Race) : Nat := Job.loads r.jobs

/-- The turns that are left: those on the agenda, one that a reaction may enter, and one that a
    function may enter which is still to be called. -/
def left (r : Race) : Nat :=
  r.agenda.length + (if r.controller.isNone then 1 else 0) + r.jobs.countP Job.isSend

variable (f : Transport) (r : Race)

theorem load_queue (jobs : List Job) : (r.queue jobs).load = r.load + Job.loads jobs :=
  Job.loads_append r.jobs jobs

theorem load_answer (x : Settlement) : (r.answer x).load ≤ r.load + 4 := by
  unfold answer
  split
  · omega
  · rw [load_queue]
    exact Nat.le_refl _

theorem load_send : (r.send f).load ≤ r.load + 4 := by
  unfold send
  dsimp only
  split
  · rw [load_queue]
    exact Nat.le_succ _
  · split
    · exact Nat.le_add_right _ _
    · exact load_answer _ _
    · exact Nat.le_add_right _ _

/-- A job adds less to a turn than it takes off. -/
theorem load_perform (job : Job) : (r.perform f job).load < r.load + job.load := by
  cases job with
  | send => exact Nat.lt_succ_of_le (load_send f r)
  | settle jobs x =>
    cases jobs with
    | zero => exact Nat.lt_succ_of_le (load_answer r x)
    | succ jobs =>
      show (r.queue [.settle jobs x]).load < r.load + (jobs + 1 + 5)
      rw [load_queue]
      simp only [Job.loads, Job.load]
      omega
  | follow x =>
    show (r.queue [.race x]).load < r.load + 4
    rw [load_queue]
    exact Nat.lt_succ_self _
  | race x =>
    rw [perform]
    split
    · exact Nat.lt_add_of_pos_right (Nat.succ_pos _)
    · rw [load_queue]
      exact Nat.lt_succ_self _
  | finish x =>
    rw [perform, load_queue]
    exact Nat.lt_succ_self _
  | classify x => exact Nat.lt_succ_self _

/-- Do the jobs of a turn, one after the other, until none is left. -/
def drain (f : Transport) (r : Race) : Race :=
  match _h : r.jobs with
  | [] => r
  | job :: rest => drain f ({ r with jobs := rest }.perform f job)
termination_by r.load
decreasing_by
  have hload : r.load = ({ r with jobs := rest } : Race).load + job.load := by
    rw [load, _h, Job.loads, Nat.add_comm]
    rfl
  rw [hload]
  exact load_perform f _ job

def rouse (r : Race) : Turn → Race
  | .settles x => r.answer x
  | .deadline => { r with timedOut := true }.interrupt (deadlineReason r.timeoutMs)
  | .aborts reason => r.abort reason

/-- Begin a turn at its time and see it through. -/
def take (f : Transport) (r : Race) (time : Nat) (turn : Turn) : Race :=
  drain f ({ r with now := time }.rouse turn)

theorem left_answer (x : Settlement) : (r.answer x).left = r.left := by
  unfold answer
  split
  · rfl
  · simp [left, queue, Job.isSend]

theorem left_schedule (delay : Nat) (turn : Turn) : (r.schedule delay turn).left = r.left + 1 := by
  have entered (agenda : Agenda) (time : Nat) :
      (agenda.enter time turn).length = agenda.length + 1 := by
    induction agenda with
    | nil => rfl
    | cons entry rest ih =>
      rw [Agenda.enter]
      split
      · rfl
      · rw [List.length_cons, ih, List.length_cons]
  show (r.agenda.enter (r.now + delay) turn).length + (if r.controller.isNone then 1 else 0) +
    r.jobs.countP Job.isSend = _
  rw [entered, left]
  omega

theorem left_settle (x : Settlement) (jobs : Nat) : (r.settle x jobs).left = r.left := by
  cases jobs with
  | zero => exact left_answer r x
  | succ jobs => simp [settle, left, queue, Job.isSend]

theorem left_react (reaction : Option Reaction) : (r.react reaction).left ≤ r.left + 1 := by
  cases reaction with
  | none => exact Nat.le_succ _
  | some reaction =>
    cases reaction with
    | soon jobs x => exact Nat.le_succ_of_le (Nat.le_of_eq (left_settle r x jobs))
    | later delay x => exact Nat.le_of_eq (left_schedule r delay _)

theorem left_interrupt (reason : AbortReason) : (r.interrupt reason).left ≤ r.left := by
  unfold interrupt
  split
  · exact Nat.le_refl _
  · rename_i fresh
    refine Nat.le_trans (left_react _ _) ?_
    show r.agenda.length + 0 + (r.jobs ++ [Job.race (.refusal reason)]).countP Job.isSend + 1 ≤ _
    rw [left, fresh, List.countP_append]
    show _ + 0 + (_ + 0) + 1 ≤ _ + 1 + _
    omega

theorem left_abort (reason : AbortReason) : (r.abort reason).left ≤ r.left := by
  unfold abort
  split
  · exact Nat.le_refl _
  · split
    · exact left_interrupt _ reason
    · exact Nat.le_refl _

theorem left_perform (job : Job) :
    (r.perform f job).left ≤ r.left + (if job.isSend then 1 else 0) := by
  cases job with
  | send =>
    show (r.send f).left ≤ r.left + 1
    unfold send
    dsimp only
    split
    · simp [left, queue, Job.isSend]
    · split
      · exact Nat.le_succ _
      · exact Nat.le_succ_of_le (Nat.le_of_eq (left_answer _ _))
      · exact Nat.le_of_eq (left_schedule _ _ _)
  | settle jobs x => exact Nat.le_of_eq (left_settle r x jobs)
  | follow x => simp [perform, left, queue, Job.isSend]
  | race x =>
    rw [perform]
    split
    · exact Nat.le_refl _
    · simp [left, queue, Job.isSend]
  | finish x =>
    have shorter := List.length_filter_le (fun entry : Nat × Turn => !entry.2.isDeadline) r.agenda
    show (r.agenda.filter fun entry : Nat × Turn => !entry.2.isDeadline).length +
      (if r.controller.isNone then 1 else 0) + (r.jobs ++ [Job.classify x]).countP Job.isSend ≤ _
    rw [left, List.countP_append]
    show _ + _ + (_ + 0) ≤ _ + 0
    omega
  | classify x => exact Nat.le_refl _

theorem left_drain : (drain f r).left ≤ r.left := by
  fun_induction drain f r with
  | case1 => exact Nat.le_refl _
  | case2 r job rest h ih =>
    refine Nat.le_trans ih (Nat.le_trans (left_perform f _ job) (Nat.le_of_eq ?_))
    simp only [left, h, List.countP_cons]
    omega

theorem left_take (time : Nat) (turn : Turn) : (r.take f time turn).left ≤ r.left := by
  refine Nat.le_trans (left_drain f _) ?_
  cases turn with
  | settles x => exact Nat.le_of_eq (left_answer _ x)
  | deadline => exact left_interrupt _ _
  | aborts reason => exact left_abort _ reason

/-- Let time pass up to a point, with all the turns that begin by then. -/
def elapse (f : Transport) (time : Nat) (r : Race) : Race :=
  match _h : r.agenda with
  | [] => r
  | (start, turn) :: rest =>
    if start ≤ time then elapse f time ({ r with agenda := rest }.take f start turn) else r
termination_by r.left
decreasing_by
  refine Nat.lt_of_le_of_lt (left_take f _ start turn) ?_
  simp only [left, _h, List.length_cons]
  omega

/-- Have the caller's signal aborted at a time. At time zero that happens in the turn of the call. -/
def plan (r : Race) : Option (Nat × AbortReason) → Race
  | none => r
  | some (0, reason) => r.abort reason
  | some (delay + 1, reason) => r.schedule (delay + 1) (.aborts reason)

/-- A call at a time after it was made. -/
def after (f : Transport) (target : Target) (timeoutMs : Double) (signal : Signal)
    (planned : Option (Nat × AbortReason)) (time : Nat) : Race :=
  elapse f time (drain f ((begin target timeoutMs signal).plan planned))

end Race
end Lifecycle
