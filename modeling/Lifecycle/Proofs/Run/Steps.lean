import Lifecycle.Proofs.Event.Accepted
import Lifecycle.Proofs.Run.Reachable
import Lifecycle.Run.Machine

/- What a run does between two demands.

   A run is resumed with what its demand came to and goes on to the next one. The
   equations of the first part say how, case by case; nothing later opens the machine
   again. The second part holds of every run whatever happens to it: it keeps its
   target, its budget and all of its request but the context, and its trace names the
   calls and the waits that it has demanded, the one under way included. -/
namespace Lifecycle

/-! ## Calls and waits in a trace -/

/-- The calls and the waits of a trace, in order. -/
def actsOf (trace : List Happening) : List Happening :=
  trace.filter fun | .noted _ => false | _ => true

@[simp] theorem actsOf_append (a b : List Happening) : actsOf (a ++ b) = actsOf a ++ actsOf b :=
  List.filter_append ..

@[simp] theorem callsOf_append (a b : List Happening) : callsOf (a ++ b) = callsOf a ++ callsOf b :=
  List.filterMap_append

@[simp] theorem waitsOf_append (a b : List Happening) : waitsOf (a ++ b) = waitsOf a ++ waitsOf b :=
  List.filterMap_append

@[simp] theorem actsOf_nil : actsOf [] = [] := rfl
@[simp] theorem callsOf_nil : callsOf [] = [] := rfl
@[simp] theorem waitsOf_nil : waitsOf [] = [] := rfl

@[simp] theorem actsOf_noted (n : RunNote) (t : List Happening) :
    actsOf (.noted n :: t) = actsOf t := rfl
@[simp] theorem actsOf_called (g : Target) (q : Request) (t : List Happening) :
    actsOf (.called g q :: t) = .called g q :: actsOf t := rfl
@[simp] theorem actsOf_waited (ms : Double) (t : List Happening) :
    actsOf (.waited ms :: t) = .waited ms :: actsOf t := rfl

@[simp] theorem callsOf_noted (n : RunNote) (t : List Happening) :
    callsOf (.noted n :: t) = callsOf t := rfl
@[simp] theorem callsOf_called (g : Target) (q : Request) (t : List Happening) :
    callsOf (.called g q :: t) = (g, q) :: callsOf t := rfl
@[simp] theorem callsOf_waited (ms : Double) (t : List Happening) :
    callsOf (.waited ms :: t) = callsOf t := rfl

@[simp] theorem waitsOf_noted (n : RunNote) (t : List Happening) :
    waitsOf (.noted n :: t) = waitsOf t := rfl
@[simp] theorem waitsOf_called (g : Target) (q : Request) (t : List Happening) :
    waitsOf (.called g q :: t) = waitsOf t := rfl
@[simp] theorem waitsOf_waited (ms : Double) (t : List Happening) :
    waitsOf (.waited ms :: t) = ms :: waitsOf t := rfl

theorem callsOf_actsOf (t : List Happening) : callsOf (actsOf t) = callsOf t := by
  induction t with
  | nil => rfl
  | cons h t ih => cases h <;> simp [ih]

theorem waitsOf_actsOf (t : List Happening) : waitsOf (actsOf t) = waitsOf t := by
  induction t with
  | nil => rfl
  | cons h t ih => cases h <;> simp [ih]

namespace Run

variable {r : Run} {signal : Signal}

theorem actsOf_reportNotes (n : Double) (report : Report) : actsOf (reportNotes n report) = [] := by
  simp [reportNotes, actsOf]

/-! ## The machine, case by case -/

def calling (r : Run) : Run where
  target := r.target
  state := r.state.calling
  demand := .call
  trace := r.trace ++ [.noted (.invoking (r.state.invocationCount.add .one) r.state.request.callbackContext),
    .called r.target r.state.request]

def pausing (r : Run) (delay : Double) : Run where
  target := r.target
  state := r.state
  demand := .wait (delay.scale 1000)
  trace := r.trace ++ [.noted (.waiting delay), .waited (delay.scale 1000)]

def taking (r : Run) (report : Report) : Run where
  target := r.target
  state := r.state.apply report
  demand := r.demand
  trace := r.trace ++ reportNotes r.state.invocationCount report

def exhausted (r : Run) (e : InProgressEvent) : Run :=
  finish { r with state := r.state.exhaust e }

@[simp] theorem actsOf_finish : actsOf r.finish.trace = actsOf r.trace := by simp [finish, add]
@[simp] theorem callsOf_finish : callsOf r.finish.trace = callsOf r.trace := by simp [finish, add]

@[simp] theorem actsOf_calling : actsOf r.calling.trace =
    actsOf r.trace ++ [.called r.target r.state.request] := by simp [calling]

@[simp] theorem actsOf_pausing (delay : Double) : actsOf (r.pausing delay).trace =
    actsOf r.trace ++ [.waited (delay.scale 1000)] := by simp [pausing]

@[simp] theorem actsOf_taking (report : Report) :
    actsOf (r.taking report).trace = actsOf r.trace := by simp [taking, actsOf_reportNotes]

theorem callNext_allowed (hr : r.state.IsReady)
    (ha : r.state.budget.allows (r.state.invocationCount.add .one) = true) :
    r.callNext none = r.calling := by
  simp only [callNext, RunState.begin_allowed hr ha]
  rfl

theorem callNext_suppressed {e : InProgressEvent} (hr : r.state.IsReady)
    (ha : r.state.budget.allows (r.state.invocationCount.add .one) = false)
    (he : r.state.lastEvent = some (.inProgress e)) : r.callNext none = r.exhausted e := by
  simp only [callNext, RunState.begin_suppressed hr ha he]
  rfl

theorem proceed_pausing {delay : Double} (hs : r.state.stage = .continuing delay)
    (hd : Double.zero.lt delay = true)
    (ha : r.state.budget.allows (r.state.invocationCount.add .one) = true) :
    r.proceed signal = r.pausing delay := by
  simp [proceed, hs, hd, ha, pausing, add]

/-- Without a delay, or without a call to wait for, a run goes on at once. -/
theorem proceed_onward {delay : Double} (hs : r.state.stage = .continuing delay)
    (hd : Double.zero.lt delay = false ∨
      r.state.budget.allows (r.state.invocationCount.add .one) = false) :
    r.proceed signal = r.callNext signal := by
  obtain hd | hd := hd <;> simp [proceed, hs, hd]

theorem proceed_terminal (ht : r.state.isTerminal = true) : r.proceed signal = r.finish := by
  unfold RunState.isTerminal at ht
  unfold proceed
  cases hs : r.state.stage <;> simp_all [Stage.isTerminal]

theorem start_eq (plan : Plan) (budget : Budget) (signal : Signal) :
    start plan budget signal =
      callNext signal ⟨plan.target, .initial plan.request budget, .nothing, []⟩ := rfl

theorem resumeCall_rejected {response : Value} {e : EventError}
    (hc : Envelope.check response = .error e) :
    r.resumeCall (.responded response) signal = r.fail (.event e) := by
  simp [resumeCall, hc]

theorem resumeCall_accepted {response : Value} {report : Report}
    (hc : Envelope.check response = .ok report) :
    r.resumeCall (.responded response) signal = (r.taking report).proceed signal := by
  simp only [resumeCall, hc]
  rfl

/-- After a response in progress a run whose budget allows the next call waits for it, or makes it. -/
theorem resumeCall_onward {response : Value}
    (accepted : Envelope.check response = .ok ⟨.inProgress (Envelope.progressOf response), []⟩)
    (further : r.state.budget.allows (r.state.invocationCount.add .one) = true) :
    let r' := r.resumeCall (.responded response) none
    (r'.demand = .call ∧ r'.state.invocationCount = r.state.invocationCount.add .one) ∨
      (∃ ms, r'.demand = .wait ms) ∧ r'.state.IsReady ∧
        r'.state.invocationCount = r.state.invocationCount ∧
        Double.zero.lt (Envelope.progressOf response).delaySeconds = true := by
  have hs : (r.taking ⟨.inProgress (Envelope.progressOf response), []⟩).state.stage =
      .continuing (Envelope.progressOf response).delaySeconds := rfl
  rw [resumeCall_accepted accepted]
  cases positive : Double.zero.lt (Envelope.progressOf response).delaySeconds with
  | true =>
    rw [proceed_pausing hs positive further]
    exact .inr ⟨⟨_, rfl⟩, .inr ⟨_, hs⟩, rfl, rfl⟩
  | false =>
    rw [proceed_onward hs (.inl positive), callNext_allowed (.inr ⟨_, hs⟩) further]
    exact .inl ⟨rfl, rfl⟩

/-! ## What every run keeps -/

def dueCalls (r : Run) : List (Target × Request) :=
  match r.demand with
  | .call => [(r.target, r.state.request)]
  | _ => []

def dueWaits (r : Run) : List Double :=
  match r.demand with
  | .wait ms => [ms]
  | _ => []

/-- A run after another one of the same operation: only the context of its request may differ, and
    the one thing it demands is the one thing it has added to the calls and the waits. -/
structure Follows (r r' : Run) : Prop where
  target : r'.target = r.target
  budget : r'.state.budget = r.state.budget
  request : ∃ context, r'.state.request = r.state.request.withCallbackContext context
  trace : ∃ more, r'.trace = r.trace ++ more ∧ callsOf more = r'.dueCalls ∧ waitsOf more = r'.dueWaits

theorem follows_finish {s : RunState} (more : List Happening) (hb : s.budget = r.state.budget)
    (hq : ∃ context, s.request = r.state.request.withCallbackContext context)
    (hc : callsOf more = []) (hw : waitsOf more = []) :
    Follows r (finish { r with state := s, trace := r.trace ++ more }) :=
  ⟨rfl, hb, hq, more ++ [.noted (.finished s.stage.name s.invocationCount)],
    by simp [finish, add], by simp [finish, dueCalls, hc], by simp [finish, dueWaits, hw]⟩

theorem follows_fail (e : RunError) : Follows r (r.fail e) := by
  have h := follows_finish (r := r) (s := r.state.fail e) [] rfl ⟨_, rfl⟩ rfl rfl
  rwa [List.append_nil] at h

theorem follows_crash (fault : Fault) : Follows r (r.crash fault) :=
  ⟨rfl, rfl, ⟨_, rfl⟩, [], by simp [crash], rfl, rfl⟩

theorem begin_keeps {s s' : RunState} (h : s.begin = .ok s') :
    s'.budget = s.budget ∧ s'.request = s.request := by
  obtain ⟨-, rfl⟩ | ⟨-, e, -, rfl⟩ := RunState.begin_cases (RunState.ready_of_begin h) h
  · exact ⟨rfl, rfl⟩
  · exact ⟨rfl, rfl⟩

theorem follows_callNext (signal : Signal) : Follows r (r.callNext signal) := by
  cases signal with
  | some reason => exact follows_fail _
  | none =>
    unfold callNext
    cases hs : r.state.begin with
    | error e => exact follows_crash _
    | ok s =>
      obtain ⟨hb, hq⟩ := begin_keeps hs
      simp only
      split
      · have h := follows_finish (r := r) [] hb
          ⟨r.state.request.callbackContext, by rw [hq]; rfl⟩ rfl rfl
        rwa [List.append_nil] at h
      · exact ⟨rfl, hb, ⟨r.state.request.callbackContext, by rw [← hq]; rfl⟩, _, rfl, rfl, rfl⟩

theorem follows_proceed (signal : Signal) : Follows r (r.proceed signal) := by
  unfold proceed
  split
  · split
    · exact ⟨rfl, rfl, ⟨_, rfl⟩, _, rfl, rfl, rfl⟩
    · exact follows_callNext signal
  · exact follows_callNext signal
  · have h := follows_finish (r := r) (s := r.state) [] rfl ⟨_, rfl⟩ rfl rfl
    rwa [List.append_nil] at h

theorem apply_keeps (s : RunState) (report : Report) : (s.apply report).budget = s.budget ∧
    ∃ context, (s.apply report).request = s.request.withCallbackContext context := by
  obtain ⟨event, warnings⟩ := report
  cases event <;> exact ⟨rfl, _, rfl⟩

theorem follows_resumeCall (result : CallResult) (signal : Signal) :
    Follows r (r.resumeCall result signal) := by
  cases result with
  | crashed fault => exact follows_crash fault
  | failed e => exact follows_fail _
  | responded response =>
    cases hc : Envelope.check response with
    | error e => rw [resumeCall_rejected hc]; exact follows_fail _
    | ok report =>
      rw [resumeCall_accepted hc]
      obtain ⟨hb, context, hq⟩ := apply_keeps r.state report
      obtain ⟨ht, hb', ⟨context', hq'⟩, more, htrace, hcalls, hwaits⟩ :=
        follows_proceed (r := r.taking report) signal
      refine ⟨ht, hb'.trans hb, ⟨context', hq'.trans ?_⟩,
        reportNotes r.state.invocationCount report ++ more, ?_, ?_, ?_⟩
      · show (r.state.apply report).request.withCallbackContext context' = _
        rw [hq]; rfl
      · rw [htrace]; simp [taking]
      · rw [← hcalls, callsOf_append, ← callsOf_actsOf (reportNotes _ _), actsOf_reportNotes]; rfl
      · rw [← hwaits, waitsOf_append, ← waitsOf_actsOf (reportNotes _ _), actsOf_reportNotes]; rfl

theorem follows_resumeWait (error : Option CallError) (signal : Signal) :
    Follows r (r.resumeWait error signal) := by
  cases error with
  | some e => exact follows_fail _
  | none => exact follows_callNext signal

/-! ## Where a request comes from -/

def isSuspended (r : Run) : Bool :=
  match r.demand with
  | .call => true
  | .wait _ => true
  | _ => false

theorem request_callNext : (r.callNext signal).state.request = r.state.request := by
  cases signal with
  | some reason => rfl
  | none =>
    unfold callNext
    cases hs : r.state.begin with
    | error e => rfl
    | ok s =>
      simp only
      split <;> exact (begin_keeps hs).2

theorem request_proceed : (r.proceed signal).state.request = r.state.request := by
  unfold proceed
  split
  · split
    · rfl
    · exact request_callNext
  · exact request_callNext
  · rfl

theorem request_resumeWait (error : Option CallError) :
    (r.resumeWait error signal).state.request = r.state.request := by
  cases error with
  | some e => rfl
  | none => exact request_callNext

/-- A run that is suspended after a call has got a response in progress, and goes on with the
    context of that response. -/
theorem suspended_resumeCall {result : CallResult}
    (h : (r.resumeCall result signal).isSuspended = true) :
    ∃ response, result = .responded response ∧
      Envelope.check response = .ok ⟨.inProgress (Envelope.progressOf response), []⟩ ∧
      (r.resumeCall result signal).state.request =
        r.state.request.withCallbackContext (Envelope.contextOf response) := by
  cases result with
  | crashed fault => cases h
  | failed e => cases h
  | responded response =>
    cases hc : Envelope.check response with
    | error e => rw [resumeCall_rejected hc] at h; cases h
    | ok report =>
      rw [resumeCall_accepted hc] at h ⊢
      have terminal (ht : (r.taking report).state.isTerminal = true) : False := by
        rw [proceed_terminal ht] at h
        cases h
      obtain ⟨-, -, rfl | ⟨u, code, rfl⟩ | rfl⟩ := Envelope.check_cases hc
      · exact (terminal rfl).elim
      · exact (terminal rfl).elim
      · exact ⟨response, rfl, hc, request_proceed⟩

/-! ## Driving a run -/

section
variable {S : Type} {serve : S → Run → Option (S × Run)} {s s' : S} {r' : Run}

theorem drive_idle (hs : serve s r = none) (fuel : Nat) : drive serve fuel s r = (s, r) := by
  cases fuel with
  | zero => rfl
  | succ fuel => simp only [drive, hs]

theorem drive_next (hs : serve s r = some (s', r')) (fuel : Nat) :
    drive serve (fuel + 1) s r = drive serve fuel s' r' := by
  rw [drive, hs]

theorem drive_add (a b : Nat) (s : S) (r : Run) :
    drive serve (a + b) s r = drive serve b (drive serve a s r).1 (drive serve a s r).2 := by
  induction a generalizing s r with
  | zero => rw [Nat.zero_add, drive]
  | succ a ih =>
    cases hs : serve s r with
    | none => rw [drive_idle hs, drive_idle hs, drive_idle hs]
    | some sr => rw [Nat.succ_add, drive_next hs, drive_next hs, ih]

/-- What serving a demand preserves holds at the end of a run if it holds at its start. -/
theorem drive_induction {P : S → Run → Prop}
    (step : ∀ s r s' r', P s r → serve s r = some (s', r') → P s' r') (fuel : Nat) (h : P s r) :
    P (drive serve fuel s r).1 (drive serve fuel s r).2 := by
  induction fuel generalizing s r with
  | zero => exact h
  | succ fuel ih =>
    cases hs : serve s r with
    | none =>
      rw [drive_idle hs]
      exact h
    | some sr =>
      rw [drive_next hs]
      exact ih (step _ _ _ _ h hs)

end

end Run
end Lifecycle
