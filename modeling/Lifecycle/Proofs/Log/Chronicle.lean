import Lifecycle.Proofs.Report.LastAnswer
import Lifecycle.Record

/- The log of a run as a record of it.

   What is seen of a run are its calls, its waits and the entries that it logs. `Chronicle` says, without
   the machine, which entries stand where: one before each call, those on its answer after it, and one
   before each wait. A run keeps to it from demand to demand, whatever the handler answers and whenever
   it is aborted (`play_charted`); one more entry at the end says how the run ended. So what a run did can
   be read from its entries alone (`log_faithful`). -/
namespace Lifecycle

open Envelope (progressOf)

/-! ## Entries -/

namespace LogEntry

/-- Said before call number `n`. -/
def invoking (n : Nat) (callbackContext : Value) : LogEntry where
  level := .debug
  members := [("invocation", .number (.tally n)), ("callbackContext", callbackContext)]
  message := some "Invoking handler"

/-- Said of a warning about the response to call number `n`. -/
def warned (n : Nat) (w : Warning) : LogEntry where
  level := .warn
  members := [("invocation", .number (.tally n)), ("warning", w.toValue)]
  message := some "Handler response violates the contract"

/-- Said of the accepted response to call number `n`. -/
def responded (n : Nat) (s : Status) : LogEntry where
  level := .debug
  members := [("invocation", .number (.tally n)), ("status", .text s.name)]
  message := some "Handler responded"

def waiting (delaySeconds : Double) : LogEntry where
  level := .debug
  members := [("delaySeconds", .number delaySeconds)]
  message := some "Waiting before re-invocation"

def finished (outcome : Text) (invocationCount : Double) : LogEntry where
  level := .info
  members := [("outcome", .text outcome), ("invocationCount", .number invocationCount)]
  message := some "Run finished"

end LogEntry

/-! What can be read from an entry, by the names of its members. -/

namespace LogEntry

def context? (e : LogEntry) : Option Value := Member.find? "callbackContext" e.members

def delaySeconds? (e : LogEntry) : Option Double :=
  (Member.find? "delaySeconds" e.members).bind fun | .number x => some x | _ => none

def warning? (e : LogEntry) : Option Warning :=
  (Member.find? "warning" e.members).bind fun v => (Record.warning v).toOption

def outcome? (e : LogEntry) : Option Text := (Member.find? "outcome" e.members).bind Value.text?

end LogEntry

/-! ## What is seen -/

/-- One thing that is seen of a run: a call, a wait, or a log entry with what it is bound to. -/
inductive Sight where
  | called (target : Target) (request : Request)
  | waited (milliseconds : Double)
  | logged (bindings : Members) (entry : LogEntry)

namespace Sight

def of (request : Request) : Happening → Sight
  | .called g q => .called g q
  | .waited ms => .waited ms
  | .noted n => .logged (runBindings request) n.entry

def calls (sights : List Sight) : List (Target × Request) :=
  sights.filterMap fun | .called g q => some (g, q) | _ => none

def waits (sights : List Sight) : List Double :=
  sights.filterMap fun | .waited ms => some ms | _ => none

def log (sights : List Sight) : List LogEntry :=
  sights.filterMap fun | .logged _ e => some e | _ => none

end Sight

def Run.sights (r : Run) : List Sight := r.trace.map (Sight.of r.state.request)

def Answer.warnings : Answer → List Warning
  | .respond response => (CallResult.responded response).warnings
  | _ => []

theorem Answer.Gives.warnings {a : Answer} {signal : Signal} {result : CallResult}
    (h : a.Gives signal result) : result.warnings = a.warnings := by
  cases h <;> rfl

/-- What is logged of the answer to call number `n`: if it is a response that is accepted, its warnings
    and then its status. -/
def Answer.entries (n : Nat) : Answer → List LogEntry
  | .respond response =>
    match Envelope.check response with
    | .ok report => report.warnings.map (.warned n) ++ [.responded n report.event.status]
    | .error _ => []
  | _ => []

section
variable (script : Script) (first : Nat) (plan : Plan)

/-- An entry of a run of a plan, which is bound to the token and the action of the run. -/
def ownEntry (e : LogEntry) : Sight :=
  .logged [("bearerToken", .text plan.request.bearerToken), ("action", .text plan.request.action.name)] e

/-- What stands between the answer to call number `n` and the next call: nothing, or the wait that the
    answer asks for with its entry before it. -/
inductive Pause : Nat → List Sight → Prop where
  | none (n : Nat) : Pause n []
  | asked {n : Nat} {response : Value} (answered : script.answer (first + n) = .respond response)
      (accepted : Envelope.check response = .ok ⟨.inProgress (progressOf response), []⟩)
      (positive : Double.zero.lt (progressOf response).delaySeconds = true) :
      Pause (n + 1) [ownEntry plan (.waiting (progressOf response).delaySeconds),
        .waited ((progressOf response).delaySeconds.scale 1000)]

/-- What is seen of a run up to the answer to its call number `n`. Every call has its entry before it,
    with the context that the call carries, and the entries on its answer after it. -/
inductive Chronicle : Nat → List Sight → Prop where
  | begun : Chronicle 0 []
  | call {n : Nat} {sights pause : List Sight} (context : Value) (h : Chronicle n sights)
      (paused : Pause script first plan n pause) :
      Chronicle (n + 1) (sights ++ pause ++
        [ownEntry plan (.invoking (n + 1) context),
          .called plan.target (plan.request.withCallbackContext context)] ++
        ((script.answer (first + n)).entries (n + 1)).map (ownEntry plan))

end

/-! ## One run -/

/-- What is seen of a run that has got the answers to `n` calls and waits for nothing but the next. -/
def Upto (script : Script) (first : Nat) (plan : Plan) (n : Nat) (seen : List Sight) : Prop :=
  ∃ sights pause, Chronicle script first plan n sights ∧ Pause script first plan n pause ∧
    seen = sights ++ pause

/-- What is seen of a run at any moment after the answers to `n` calls. -/
inductive Recorded (script : Script) (first : Nat) (plan : Plan) (n : Nat) (r : Run) : Prop where
  | calling {seen : List Sight} (demand : r.demand = .call) (count : r.state.invocationCount = .tally (n + 1))
      (upto : Upto script first plan n seen)
      (last : r.trace.map (Sight.of plan.request) = seen ++
        [ownEntry plan (.invoking (n + 1) r.state.request.callbackContext),
          .called r.target r.state.request])
  | waiting {ms : Double} (demand : r.demand = .wait ms) (count : r.state.invocationCount = .tally n)
      (upto : Upto script first plan n (r.trace.map (Sight.of plan.request)))
  | ended {seen : List Sight} (demand : r.demand = .nothing) (upto : Upto script first plan n seen)
      (last : r.trace.map (Sight.of plan.request) =
        seen ++ [ownEntry plan (.finished r.state.stage.name r.state.invocationCount)])
  | crashed {fault : Fault} (demand : r.demand = .crashed fault)

section
variable {script : Script} {first n : Nat} {plan : Plan} {r : Run} {signal : Signal}
  {seen sights : List Sight}

theorem of_reportNotes {response : Value} {report : Report} (hc : Envelope.check response = .ok report) :
    (Run.reportNotes (.tally n) report).map (Sight.of plan.request) =
      ((Answer.respond response).entries n).map (ownEntry plan) := by
  simp only [Run.reportNotes, Answer.entries, hc, List.map_append, List.map_map]
  rfl

theorem Chronicle.upto (h : Chronicle script first plan n sights) : Upto script first plan n sights :=
  ⟨sights, [], h, .none n, (List.append_nil sights).symm⟩

namespace Recorded

theorem finish (upto : Upto script first plan n (r.trace.map (Sight.of plan.request))) :
    Recorded script first plan n r.finish :=
  .ended rfl upto (by rw [Run.finish, Run.add, List.map_append]; rfl)

theorem fail (upto : Upto script first plan n (r.trace.map (Sight.of plan.request))) (e : RunError) :
    Recorded script first plan n (r.fail e) := finish upto

theorem callNext (count : r.state.invocationCount = .tally n)
    (upto : Upto script first plan n (r.trace.map (Sight.of plan.request))) (signal : Signal) :
    Recorded script first plan n (r.callNext signal) := by
  cases signal with
  | some reason => exact fail upto _
  | none =>
    rw [Run.callNext]
    cases hs : r.state.begin with
    | error e => exact .crashed rfl
    | ok s =>
      -- the call begins, or the budget suppresses it and nothing is said of it
      obtain ⟨-, rfl⟩ | ⟨-, e, -, rfl⟩ := RunState.begin_cases (RunState.ready_of_begin hs) hs
      · have next : r.state.invocationCount.add .one = .tally (n + 1) := by rw [count, Double.tally_succ]
        refine .calling rfl next upto ?_
        rw [LogEntry.invoking, ← next]
        exact List.map_append
      · exact finish upto

/-- After a response in progress a run pauses if a delay is asked for, and then goes on. -/
theorem proceed {response : Value} (answered : script.answer (first + n) = .respond response)
    (accepted : Envelope.check response = .ok ⟨.inProgress (progressOf response), []⟩)
    (stage : r.state.stage = .continuing (progressOf response).delaySeconds)
    (count : r.state.invocationCount = .tally (n + 1))
    (h : Chronicle script first plan (n + 1) (r.trace.map (Sight.of plan.request))) (signal : Signal) :
    Recorded script first plan (n + 1) (r.proceed signal) := by
  by_cases due : Double.zero.lt (progressOf response).delaySeconds = true ∧
      r.state.budget.allows (r.state.invocationCount.add .one) = true
  · rw [Run.proceed_pausing stage due.1 due.2]
    refine .waiting rfl count ⟨_, _, h, .asked answered accepted due.1, ?_⟩
    exact List.map_append
  · rw [Run.proceed_onward stage
      (by simpa only [Decidable.not_and_iff_or_not, Bool.not_eq_true] using due)]
    exact callNext count h.upto signal

theorem taking {response : Value} {report : Report}
    (answered : script.answer (first + n) = .respond response)
    (hc : Envelope.check response = .ok report) (count : r.state.invocationCount = .tally (n + 1))
    (h : Chronicle script first plan (n + 1) ((r.taking report).trace.map (Sight.of plan.request)))
    (signal : Signal) : Recorded script first plan (n + 1) ((r.taking report).proceed signal) := by
  obtain ⟨event, warnings⟩ := report
  cases event with
  | success e =>
    rw [Run.proceed_terminal rfl]
    exact finish h.upto
  | failed e =>
    rw [Run.proceed_terminal rfl]
    exact finish h.upto
  | inProgress e =>
    obtain ⟨rfl, rfl⟩ := Envelope.check_inProgress hc
    refine proceed answered hc rfl ?_ h signal
    exact count

theorem resumeCall {context : Value} {result : CallResult} (count : r.state.invocationCount = .tally (n + 1))
    (target : r.target = plan.target) (request : r.state.request = plan.request.withCallbackContext context)
    (upto : Upto script first plan n seen)
    (last : r.trace.map (Sight.of plan.request) = seen ++
      [ownEntry plan (.invoking (n + 1) r.state.request.callbackContext), .called r.target r.state.request])
    (gives : (script.answer (first + n)).Gives signal result) :
    Recorded script first plan (n + 1) (r.resumeCall result signal) := by
  obtain ⟨sights, pause, h, paused, rfl⟩ := upto
  have answered := Chronicle.call context h paused
  rw [request, target] at last
  generalize ha : script.answer (first + n) = answer at gives answered
  -- an answer that is not accepted leaves no entries
  have silent (entries : answer.entries (n + 1) = []) :
      Upto script first plan (n + 1) (r.trace.map (Sight.of plan.request)) := by
    rw [entries, List.map_nil, List.append_nil] at answered
    rw [last]
    exact answered.upto
  cases gives with
  | crashed => exact .crashed rfl
  | failed => exact fail (silent rfl) _
  | abandoned => exact fail (silent rfl) _
  | @responded response =>
    cases hc : Envelope.check response with
    | error e =>
      rw [Run.resumeCall_rejected hc]
      exact fail (silent (by rw [Answer.entries, hc])) _
    | ok report =>
      rw [Run.resumeCall_accepted hc]
      have taken : Chronicle script first plan (n + 1)
          ((r.taking report).trace.map (Sight.of plan.request)) := by
        rw [Run.taking, List.map_append, last, count]
        rw [← of_reportNotes hc] at answered
        exact answered
      exact taking ha hc count taken signal

theorem resumeWait (count : r.state.invocationCount = .tally n)
    (upto : Upto script first plan n (r.trace.map (Sight.of plan.request))) (error : Option CallError)
    (signal : Signal) : Recorded script first plan n (r.resumeWait error signal) := by
  cases error with
  | some e => exact fail upto _
  | none => exact callNext count upto signal

theorem start (script : Script) (first : Nat) (plan : Plan) (budget : Budget) (signal : Signal) :
    Recorded script first plan 0 (.start plan budget signal) := by
  rw [Run.start_eq]
  exact callNext rfl Chronicle.begun.upto signal

/-! What a demand says of where the record of a run stands. -/

theorem of_call (h : Recorded script first plan n r) (hd : r.demand = .call) :
    r.state.invocationCount = .tally (n + 1) ∧ ∃ seen, Upto script first plan n seen ∧
      r.trace.map (Sight.of plan.request) = seen ++
        [ownEntry plan (.invoking (n + 1) r.state.request.callbackContext),
          .called r.target r.state.request] := by
  cases h with
  | calling _ count upto last => exact ⟨count, _, upto, last⟩
  | _ => simp_all

theorem of_wait {ms : Double} (h : Recorded script first plan n r) (hd : r.demand = .wait ms) :
    r.state.invocationCount = .tally n ∧
      Upto script first plan n (r.trace.map (Sight.of plan.request)) := by
  cases h with
  | waiting _ count upto => exact ⟨count, upto⟩
  | _ => simp_all

theorem of_nothing (h : Recorded script first plan n r) (hd : r.demand = .nothing) :
    ∃ seen, Upto script first plan n seen ∧ r.trace.map (Sight.of plan.request) =
      seen ++ [ownEntry plan (.finished r.state.stage.name r.state.invocationCount)] := by
  cases h with
  | ended _ upto last => exact ⟨_, upto, last⟩
  | _ => simp_all

end Recorded
end

namespace Session

variable {script : Script} {plan : Plan} {budget : Budget} {origin s s' : Session} {r r' : Run}

/-- The warnings about the answers to the first calls of a run. -/
def warningsUpTo (script : Script) (first n : Nat) : List Warning :=
  (List.range n).flatMap fun k => (script.answer (first + k)).warnings

theorem warningsUpTo_succ (script : Script) (first n : Nat) :
    warningsUpTo script first (n + 1) =
      warningsUpTo script first n ++ (script.answer (first + n)).warnings := by
  rw [warningsUpTo, List.range_succ, List.flatMap_append, List.flatMap_singleton]
  rfl

/-- A run and the session that serves it, with what is seen of the run since it began. -/
structure Charted (script : Script) (origin : Session) (plan : Plan) (budget : Budget) (s : Session)
    (r : Run) : Prop where
  tracked : Tracked script origin plan budget s r
  recorded : ∃ n, s.calls.length = origin.calls.length + n ∧
    r.state.warnings = warningsUpTo script origin.calls.length n ∧
    Recorded script origin.calls.length plan n r

theorem charted_start (script : Script) (plan : Plan) (budget : Budget) (origin : Session) :
    Charted script origin plan budget origin (.start plan budget origin.signal) := by
  refine ⟨tracked_start script plan budget origin, 0, rfl, ?_, .start ..⟩
  rw [Run.start_eq, Run.warnings_callNext]
  rfl

theorem Served.charted (h : Charted script origin plan budget s r) (hs : Served script s r s' r') :
    Charted script origin plan budget s' r' := by
  obtain ⟨tracked, n, made, warned, recorded⟩ := h
  refine ⟨hs.tracked tracked, ?_⟩
  cases hs with
  | @call signal result demand _ gives =>
    rw [made] at gives
    refine ⟨n + 1, ?_, ?_, ?_⟩
    · rw [List.length_append, made]
      rfl
    · rw [Run.warnings_resumeCall, warned, gives.warnings, warningsUpTo_succ]
    · obtain ⟨context, request⟩ := tracked.request
      obtain ⟨count, _, upto, last⟩ := recorded.of_call demand
      exact .resumeCall count tracked.target request upto last gives
  | wait demand _ =>
    refine ⟨n, made, ?_, ?_⟩
    · rw [Run.warnings_resumeWait]
      exact warned
    · obtain ⟨count, upto⟩ := recorded.of_wait demand
      exact .resumeWait count upto _ _

theorem play_charted (script : Script) (plan : Plan) (budget : Budget) (origin : Session) (fuel : Nat) :
    Charted script origin plan budget
      (play script fuel origin (.start plan budget origin.signal)).1
      (play script fuel origin (.start plan budget origin.signal)).2 :=
  play_induction (fun _ _ _ _ h hs => hs.charted h) fuel (charted_start script plan budget origin)

end Session

/-! ## Reading the log -/

theorem Record.warning_toValue (w : Warning) : Record.warning w.toValue = .ok w := by
  obtain ⟨code, status, message⟩ := w
  cases code <;> cases status <;> rfl

/-- Of the entries on an answer those about its warnings say something that can be read. -/
theorem Answer.filterMap_entries {α : Type} (f : LogEntry → Option α) (n : Nat)
    (responded : ∀ s, f (.responded n s) = none) (a : Answer) :
    (a.entries n).filterMap f = a.warnings.filterMap fun w => f (.warned n w) := by
  cases a with
  | respond response =>
    simp only [Answer.entries, Answer.warnings, CallResult.warnings]
    cases Envelope.check response with
    | error e => rfl
    | ok report =>
      simp only [List.filterMap_append, List.filterMap_map, List.filterMap_cons, responded,
        List.filterMap_nil, List.append_nil, Function.comp_def]
  | _ => rfl

namespace Sight

variable {plan : Plan}

@[simp] theorem log_append (a b : List Sight) : log (a ++ b) = log a ++ log b := List.filterMap_append
@[simp] theorem calls_append (a b : List Sight) : calls (a ++ b) = calls a ++ calls b :=
  List.filterMap_append
@[simp] theorem waits_append (a b : List Sight) : waits (a ++ b) = waits a ++ waits b :=
  List.filterMap_append

@[simp] theorem log_entries (es : List LogEntry) : log (es.map (ownEntry plan)) = es := by
  induction es with
  | nil => rfl
  | cons e es ih => exact congrArg (e :: ·) ih

@[simp] theorem calls_entries (es : List LogEntry) : calls (es.map (ownEntry plan)) = [] := by
  induction es with
  | nil => rfl
  | cons e es ih => exact ih

@[simp] theorem waits_entries (es : List LogEntry) : waits (es.map (ownEntry plan)) = [] := by
  induction es with
  | nil => rfl
  | cons e es ih => exact ih

theorem calls_of (q : Request) (trace : List Happening) : calls (trace.map (of q)) = callsOf trace := by
  induction trace with
  | nil => rfl
  | cons h trace ih =>
    cases h with
    | called g q => exact congrArg ((g, q) :: ·) ih
    | _ => exact ih

theorem waits_of (q : Request) (trace : List Happening) : waits (trace.map (of q)) = waitsOf trace := by
  induction trace with
  | nil => rfl
  | cons h trace ih =>
    cases h with
    | waited ms => exact congrArg (ms :: ·) ih
    | _ => exact ih

end Sight

/-- What the entries among sights say of the rest: the contexts of the calls, the lengths of the waits and
    the warnings about so many answers, and no end. -/
structure ReadBack (script : Script) (first n : Nat) (sights : List Sight) : Prop where
  contexts : (Sight.log sights).filterMap LogEntry.context? =
    (Sight.calls sights).map fun c => c.2.callbackContext
  waits : ((Sight.log sights).filterMap LogEntry.delaySeconds?).map (Double.scale 1000) = Sight.waits sights
  warnings : (Sight.log sights).filterMap LogEntry.warning? = Session.warningsUpTo script first n
  outcome : (Sight.log sights).filterMap LogEntry.outcome? = []
  calls : (Sight.calls sights).length = n

variable {script : Script} {first n : Nat} {plan : Plan} {sights pause seen : List Sight}

theorem ReadBack.append_pause (h : ReadBack script first n sights)
    (paused : Pause script first plan n pause) : ReadBack script first n (sights ++ pause) := by
  cases paused with
  | none => rwa [List.append_nil]
  | asked answered accepted positive =>
    obtain ⟨contexts, waits, warnings, outcome, calls⟩ := h
    constructor
    · rw [Sight.log_append, Sight.calls_append, List.filterMap_append, List.map_append, contexts]
      rfl
    · rw [Sight.log_append, Sight.waits_append, List.filterMap_append, List.map_append, waits]
      rfl
    · rw [Sight.log_append, List.filterMap_append, warnings]
      exact List.append_nil _
    · rw [Sight.log_append, List.filterMap_append, outcome]
      rfl
    · rw [Sight.calls_append, List.length_append, calls]
      rfl

theorem ReadBack.append_call (h : ReadBack script first n sights) (context : Value) :
    ReadBack script first (n + 1) (sights ++
      [ownEntry plan (.invoking (n + 1) context),
        .called plan.target (plan.request.withCallbackContext context)] ++
      ((script.answer (first + n)).entries (n + 1)).map (ownEntry plan)) := by
  obtain ⟨contexts, waits, warnings, outcome, calls⟩ := h
  have warned (w : Warning) : (LogEntry.warned (n + 1) w).warning? = some w :=
    congrArg Except.toOption (Record.warning_toValue w)
  -- only the entries about warnings say anything after the call
  have silent {α : Type} (f : LogEntry → Option α) (warned : ∀ w, f (.warned (n + 1) w) = none)
      (responded : ∀ s, f (.responded (n + 1) s) = none) :
      ((script.answer (first + n)).entries (n + 1)).filterMap f = [] := by
    rw [Answer.filterMap_entries f _ responded]
    exact List.filterMap_eq_nil_iff.2 fun w _ => warned w
  constructor
  · simp only [Sight.log_append, Sight.log_entries, Sight.calls_append, Sight.calls_entries,
      List.filterMap_append, List.map_append, contexts,
      silent LogEntry.context? (fun _ => rfl) (fun _ => rfl)]
    rfl
  · simp only [Sight.log_append, Sight.log_entries, Sight.waits_append, Sight.waits_entries,
      List.filterMap_append, List.map_append, waits,
      silent LogEntry.delaySeconds? (fun _ => rfl) (fun _ => rfl)]
    rfl
  · simp only [Sight.log_append, Sight.log_entries, List.filterMap_append, warnings, warned,
      Answer.filterMap_entries LogEntry.warning? (n + 1) fun _ => rfl, List.filterMap_some,
      Session.warningsUpTo_succ]
    exact congrArg (· ++ _) (List.append_nil _)
  · simp only [Sight.log_append, Sight.log_entries, List.filterMap_append, outcome,
      silent LogEntry.outcome? (fun _ => rfl) (fun _ => rfl)]
    rfl
  · simp only [Sight.calls_append, Sight.calls_entries, List.append_nil, List.length_append, calls]
    rfl

theorem Chronicle.readBack (h : Chronicle script first plan n sights) : ReadBack script first n sights := by
  induction h with
  | begun => exact ⟨rfl, rfl, rfl, rfl, rfl⟩
  | @call n sights pause context h paused ih => exact (ih.append_pause paused).append_call context

namespace Session

variable {budget : Budget} {origin s : Session} {r : Run}

/-- **The log is a faithful record of a finished run**, whatever the script, the budget and the moment of an
    abort, as long as no call throws. Of every call there is an entry right before it, with its number and
    the context that it carries; after it come the entries on its answer if that was accepted, one for
    each warning and one for the status. Right before every wait there is an entry with its length, and
    one entry at the very end names the way in which the run ended. All of them are bound to the token and
    the action of the run. So the contexts of the calls, the lengths of the waits, the warnings and the
    ending can be read from the entries alone. -/
theorem log_faithful {fuel : Nat} (hp : play script fuel origin (.start plan budget origin.signal) = (s, r))
    (ended : r.demand = .nothing) :
    (∃ sights pause,
      Chronicle script origin.calls.length plan (s.calls.length - origin.calls.length) sights ∧
      Pause script origin.calls.length plan (s.calls.length - origin.calls.length) pause ∧
      r.sights = sights ++ pause ++
        [ownEntry plan (.finished r.state.stage.name r.state.invocationCount)]) ∧
    r.state.stage.isTerminal = true ∧
    s.calls = origin.calls ++ Sight.calls r.sights ∧
    s.waits = origin.waits ++ Sight.waits r.sights ∧
    (Sight.log r.sights).filterMap LogEntry.context? =
      (Sight.calls r.sights).map (fun c => c.2.callbackContext) ∧
    ((Sight.log r.sights).filterMap LogEntry.delaySeconds?).map (Double.scale 1000) =
      Sight.waits r.sights ∧
    (Sight.log r.sights).filterMap LogEntry.warning? = r.state.warnings ∧
    (Sight.log r.sights).filterMap LogEntry.outcome? = [r.state.stage.name] := by
  have seen : Seen origin s r := by
    have := play_seen script plan budget origin fuel
    rwa [hp] at this
  have charted : Charted script origin plan budget s r := by
    have := play_charted script plan budget origin fuel
    rwa [hp] at this
  obtain ⟨tracked, n, made, warned, recorded⟩ := charted
  obtain ⟨last, -, poised⟩ := tracked.poised
  have terminal := (poised.of_nothing ended).2.terminal
  have number : s.calls.length - origin.calls.length = n := by omega
  have own : r.sights = r.trace.map (Sight.of plan.request) := by
    obtain ⟨context, request⟩ := tracked.request
    rw [Run.sights, request]
    rfl
  have calls : s.calls = origin.calls ++ Sight.calls r.sights := by
    rw [own, Sight.calls_of, seen.calls, Run.dueCalls, ended, List.append_nil]
  have waits : s.waits = origin.waits ++ Sight.waits r.sights := by
    rw [own, Sight.waits_of, seen.waits, Run.dueWaits, ended, List.append_nil]
  rw [number]
  obtain ⟨_, upto, last⟩ := recorded.of_nothing ended
  -- the last entry tells of the ending and of nothing else
  obtain ⟨sights, pause, chronicle, paused, rfl⟩ := upto
  rw [← own] at last
  obtain ⟨contexts, pauses, warnings, outcome, -⟩ := chronicle.readBack.append_pause paused
  have read {α : Type} (f : LogEntry → Option α) : (Sight.log r.sights).filterMap f =
      (Sight.log (sights ++ pause)).filterMap f ++
        [LogEntry.finished r.state.stage.name r.state.invocationCount].filterMap f := by
    rw [last, Sight.log_append, List.filterMap_append]
    rfl
  have called : Sight.calls r.sights = Sight.calls (sights ++ pause) := by
    rw [last, Sight.calls_append]
    exact List.append_nil _
  have waited : Sight.waits r.sights = Sight.waits (sights ++ pause) := by
    rw [last, Sight.waits_append]
    exact List.append_nil _
  refine ⟨⟨sights, pause, chronicle, paused, last⟩, terminal, calls, waits, ?_, ?_, ?_, ?_⟩
  · rw [read, contexts, called]
    exact List.append_nil _
  · rw [read, List.map_append, pauses, waited]
    exact List.append_nil _
  · rw [read, warnings, warned]
    exact List.append_nil _
  · rw [read, outcome]
    rfl

/-- A response in progress that asks for a delay of two seconds, and then a failure of an unknown kind. -/
theorem delayed_failure_logged :
    let script : Script := ⟨[.respond (.object [("status", .text "IN_PROGRESS"),
      ("callbackDelaySeconds", .number (.ofNat 2))]),
      .respond (.object [("status", .text "FAILED"), ("errorCode", .text "Kaboom")])], none⟩
    let plan : Plan :=
      ⟨⟨"http://localhost", "handler"⟩, ⟨.create, .object [], .object [], "token-1"⟩⟩
    let run := play script 3 (.begin script) (.start plan (.bounded (.ofNat 1)) none)
    let log := Sight.log run.2.sights
    run.2.demand = .nothing ∧
      log.map (fun e => e.message.getD []) = ["Invoking handler", "Handler responded",
        "Waiting before re-invocation", "Invoking handler", "Handler response violates the contract",
        "Handler responded", "Run finished"] ∧
      log.filterMap LogEntry.warning? = [.unknownCode "Kaboom"] ∧
      log.filterMap LogEntry.outcome? = ["done_failed"] := by
  intro script plan run log
  have ended : run.2.demand = .nothing := Demand.eq_nothing (by decide +kernel)
  obtain ⟨-, -, -, -, -, -, warnings, outcome⟩ := log_faithful (Prod.eta run).symm ended
  refine ⟨ended, by decide +kernel, ?_, ?_⟩
  · rw [warnings]
    decide +kernel
  · rw [outcome]
    decide +kernel

end Session

end Lifecycle
