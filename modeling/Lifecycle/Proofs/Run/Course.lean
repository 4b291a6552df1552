import Lifecycle.Proofs.Run.Steps
import Lifecycle.Run.Script

/- The course that a run takes under the answers it gets.

   `Course` says which calls and waits the answers lead to while they are responses in
   progress, and `Ends` how an answer ends a run. `Phase` says where a run stands in its
   course at any moment. What resumes a run leads from phase to phase: its start
   (`Phase.of_start`), an answer to its call (`Phase.of_answer`), the end of its wait
   (`Phase.of_callNext`), an error and an abort. -/
namespace Lifecycle

open Envelope (contextOf delayOf progressOf)

/-- Whether an answer is a response that is accepted as being in progress. -/
structure Answer.Continues (a : Answer) (response : Value) : Prop where
  responded : a = .respond response
  accepted : Envelope.check response = .ok ⟨.inProgress (progressOf response), []⟩

/-- The wait before the next call: there is one exactly if a delay is asked for and positive. -/
def pauseOf : Option Double → List Happening
  | none => []
  | some delay => if Double.zero.lt delay then [.waited (delay.scale 1000)] else []

theorem pauseOf_positive {delay : Option Double} (h : Double.zero.lt (delay.getD .zero) = true) :
    pauseOf delay = [.waited ((delay.getD .zero).scale 1000)] := by
  cases delay with
  | none => exact absurd h (by decide +kernel)
  | some d =>
    rw [Option.getD_some] at h
    simp [pauseOf, h]

theorem pauseOf_zero {delay : Option Double} (h : Double.zero.lt (delay.getD .zero) = false) :
    pauseOf delay = [] := by
  cases delay with
  | none => rfl
  | some d =>
    rw [Option.getD_some] at h
    simp [pauseOf, h]

theorem callsOf_pauseOf (delay : Option Double) : callsOf (pauseOf delay) = [] := by
  unfold pauseOf
  split
  · rfl
  · split <;> rfl

section
variable (plan : Plan) (limit : Option Nat) (answer : Nat → Answer)

/-- The calls and the waits up to the call after `n` others, and the request of that call. Each
    answer before it is a response in progress and leads to its wait and to the next call, which
    takes over the context of the response. -/
inductive Course : Nat → Request → List Happening → Prop where
  | first : Course 0 plan.request [.called plan.target plan.request]
  | again {n : Nat} {request : Request} {acts : List Happening} {response : Value}
      (h : Course n request acts) (ha : (answer n).Continues response)
      (hl : ∀ k ∈ limit, n + 1 ≤ k) :
      Course (n + 1) (request.withCallbackContext (contextOf response))
        (acts ++ pauseOf (delayOf response) ++
          [.called plan.target (request.withCallbackContext (contextOf response))])

end

/-- How the answer to the call after `n` others ends a run. -/
inductive Ends (limit : Option Nat) (n : Nat) (a : Answer) : Stage → Prop where
  | failed {e : CallError} (ha : a = .fail e) : Ends limit n a (.errored (.call e))
  | rejected {response : Value} {e : EventError} (ha : a = .respond response)
      (hc : Envelope.check response = .error e) : Ends limit n a (.errored (.event e))
  | succeeded {response : Value} {e : SuccessEvent} {ws : List Warning} (ha : a = .respond response)
      (hc : Envelope.check response = .ok ⟨.success e, ws⟩) : Ends limit n a (.succeeded e)
  | handlerFailed {response : Value} {e : FailedEvent} {ws : List Warning}
      (ha : a = .respond response) (hc : Envelope.check response = .ok ⟨.failed e, ws⟩) :
      Ends limit n a (.failed e)
  | exhausted {response : Value} {k : Nat} (ha : a.Continues response) (hk : limit = some k)
      (hn : k ≤ n) : Ends limit n a (.exhausted (progressOf response))

variable {plan : Plan} {budget : Budget} {limit : Option Nat} {answer : Nat → Answer}
  {signal : Signal} {r : Run} {n : Nat} {request : Request} {acts : List Happening}
  {response : Value}

namespace Course

theorem calls_length (h : Course plan limit answer n request acts) :
    (callsOf acts).length = n + 1 := by
  induction h with
  | first => rfl
  | again _ _ _ ih => simp [ih, callsOf_pauseOf]

theorem continues (h : Course plan limit answer n request acts) :
    ∀ i < n, ∃ response, (answer i).Continues response := by
  induction h with
  | first => exact fun i hi => absurd hi (Nat.not_lt_zero i)
  | @again n _ _ response _ ha _ ih =>
    intro i hi
    rcases Nat.lt_succ_iff_lt_or_eq.mp hi with hi | rfl
    · exact ih i hi
    · exact ⟨response, ha⟩

theorem within (h : Course plan limit answer n request acts) : ∀ k ∈ limit, n ≤ k := by
  cases h with
  | first => exact fun k _ => Nat.zero_le k
  | again _ _ hl => exact hl

end Course

theorem Ends.exhausts {a : Answer} {stage : Stage} (h : Ends limit n a stage) (ha : a.Continues response) :
    ∃ k, limit = some k ∧ k ≤ n ∧ stage = .exhausted (progressOf response) := by
  have hr := ha.responded
  have hc := ha.accepted
  cases h with
  | failed ha' => rw [hr] at ha'; cases ha'
  | rejected ha' hc' => rw [hr] at ha'; cases ha'; rw [hc] at hc'; cases hc'
  | succeeded ha' hc' => rw [hr] at ha'; cases ha'; rw [hc] at hc'; cases hc'
  | handlerFailed ha' hc' => rw [hr] at ha'; cases ha'; rw [hc] at hc'; cases hc'
  | exhausted ha' hk hn =>
    have hr' := ha'.responded
    rw [hr] at hr'
    cases hr'
    exact ⟨_, hk, hn, rfl⟩

/-! ## Phases -/

/-- Where a run stands: a call or a wait is under way, an answer or an abort has ended the run, or
    a fault has. The signal is the one with which the run was last resumed. -/
inductive Phase (plan : Plan) (limit : Option Nat) (answer : Nat → Answer) (signal : Signal)
    (r : Run) : Prop where
  | calling {n : Nat} (demand : r.demand = .call) (unaborted : signal = none)
      (count : r.state.invocationCount = .tally (n + 1))
      (course : Course plan limit answer n r.state.request (actsOf r.trace))
  | waiting {n : Nat} {request : Request} {acts : List Happening} {response : Value} {ms : Double}
      (demand : r.demand = .wait ms) (count : r.state.invocationCount = .tally (n + 1))
      (ready : r.state.IsReady)
      (last : r.state.lastEvent = some (.inProgress (progressOf response)))
      (course : Course plan limit answer n request acts) (continues : (answer n).Continues response)
      (within : ∀ k ∈ limit, n + 1 ≤ k)
      (next : r.state.request = request.withCallbackContext (contextOf response))
      (trace : actsOf r.trace = acts ++ pauseOf (delayOf response))
  | ended {n : Nat} {request : Request} (demand : r.demand = .nothing)
      (issued : r.state.invocationsIssued = .tally (n + 1))
      (course : Course plan limit answer n request (actsOf r.trace))
      (ends : Ends limit n (answer n) r.state.stage)
      (unaborted : ∀ e, r.state.stage = .exhausted e → signal = none)
  | cancelled {reason : AbortReason} (demand : r.demand = .nothing)
      (aborted : signal = some reason)
      (stage : r.state.stage = .errored (.call (.cancelledBy reason)))
      (issued : r.state.invocationsIssued = .tally (callsOf r.trace).length)
      (within : ∀ k ∈ limit, (callsOf r.trace).length ≤ k + 1)
  | crashed {n : Nat} {message : Text} (demand : ∃ fault, r.demand = .crashed fault)
      (crash : answer n = .crash message)

namespace Phase

/-! What a demand says of the phase. -/

theorem of_call (h : Phase plan limit answer signal r) (hd : r.demand = .call) :
    ∃ n, r.state.invocationCount = .tally (n + 1) ∧
      Course plan limit answer n r.state.request (actsOf r.trace) := by
  cases h with
  | calling _ _ count course => exact ⟨_, count, course⟩
  | _ => simp_all

theorem of_wait {ms : Double} (h : Phase plan limit answer signal r) (hd : r.demand = .wait ms) :
    ∃ n request acts response, r.state.invocationCount = .tally (n + 1) ∧ r.state.IsReady ∧
      r.state.lastEvent = some (.inProgress (progressOf response)) ∧
      Course plan limit answer n request acts ∧ (answer n).Continues response ∧
      (∀ k ∈ limit, n + 1 ≤ k) ∧
      r.state.request = request.withCallbackContext (contextOf response) ∧
      actsOf r.trace = acts ++ pauseOf (delayOf response) := by
  cases h with
  | waiting _ count ready last course continues within next trace =>
    exact ⟨_, _, _, _, count, ready, last, course, continues, within, next, trace⟩
  | _ => simp_all

theorem of_nothing (h : Phase plan limit answer signal r) (hd : r.demand = .nothing) :
    (∃ n request, r.state.invocationsIssued = .tally (n + 1) ∧
      Course plan limit answer n request (actsOf r.trace) ∧ Ends limit n (answer n) r.state.stage ∧
      ∀ e, r.state.stage = .exhausted e → signal = none) ∨
    ∃ reason, signal = some reason ∧
      r.state.stage = .errored (.call (.cancelledBy reason)) ∧
      r.state.invocationsIssued = .tally (callsOf r.trace).length ∧
      ∀ k ∈ limit, (callsOf r.trace).length ≤ k + 1 := by
  cases h with
  | ended _ issued course ends unaborted => exact .inl ⟨_, _, issued, course, ends, unaborted⟩
  | cancelled _ aborted stage issued within => exact .inr ⟨_, aborted, stage, issued, within⟩
  | _ => simp_all

theorem of_fail {e : CallError} (ha : answer n = .fail e) (hn : r.state.invocationCount = .tally (n + 1))
    (hc : Course plan limit answer n request (actsOf r.trace)) :
    Phase plan limit answer signal (r.fail (.call e)) :=
  .ended rfl hn (by simpa [Run.fail] using hc) (.failed ha) nofun

theorem of_abort (reason : AbortReason)
    (hn : r.state.invocationCount = .tally (callsOf r.trace).length)
    (hl : ∀ k ∈ limit, (callsOf r.trace).length ≤ k + 1) :
    Phase plan limit answer (some reason) (r.fail (.call (.cancelledBy reason))) :=
  .cancelled rfl rfl rfl (by rw [Run.fail, Run.callsOf_finish]; exact hn)
    (by rw [Run.fail, Run.callsOf_finish]; exact hl)

theorem of_start (budget : Budget) (signal : Signal) :
    Phase plan limit answer signal (.start plan budget signal) := by
  rw [Run.start_eq]
  cases signal with
  | some reason => exact of_abort reason rfl (fun k _ => Nat.zero_le (k + 1))
  | none =>
    rw [Run.callNext_allowed (.inl rfl) (Budget.allows_first budget)]
    exact .calling (n := 0) rfl rfl (RunState.calling_initial_count _ _) .first

/-- A run that is to go on to its next call after a response in progress, with the wait behind it
    if there was one to make. -/
theorem of_callNext (hb : r.state.budget.Enforces limit) (ht : r.target = plan.target)
    (hr : r.state.IsReady) (hn : r.state.invocationCount = .tally (n + 1))
    (he : r.state.lastEvent = some (.inProgress (progressOf response)))
    (hq : r.state.request = request.withCallbackContext (contextOf response))
    (hc : Course plan limit answer n request acts) (ha : (answer n).Continues response)
    (hw : (∀ k ∈ limit, n + 1 ≤ k) → actsOf r.trace = acts ++ pauseOf (delayOf response))
    (hx : (∃ k, limit = some k ∧ k < n + 1) → actsOf r.trace = acts)
    (hl : (callsOf r.trace).length = n + 1) :
    Phase plan limit answer signal (r.callNext signal) := by
  have hn' : r.state.invocationCount.add .one = .tally (n + 1 + 1) := by rw [hn, Double.tally_succ (n + 1)]
  cases signal with
  | some reason =>
    exact of_abort reason (by rw [hn, hl])
      (fun k hk => by rw [hl]; exact Nat.succ_le_succ (hc.within k hk))
  | none =>
    cases hal : r.state.budget.allows (r.state.invocationCount.add .one) with
    | true =>
      have within : ∀ k ∈ limit, n + 1 ≤ k := by rwa [hn', hb (n + 1)] at hal
      rw [Run.callNext_allowed hr (by rwa [hn'] at hal ⊢)]
      refine .calling (n := n + 1) rfl rfl hn' ?_
      rw [Run.actsOf_calling, hw within, ht]
      show Course plan limit answer (n + 1) r.state.request _
      rw [hq]
      exact .again hc ha within
    | false =>
      obtain ⟨k, hk, hlt⟩ : ∃ k, limit = some k ∧ k < n + 1 := by
        rwa [hn', hb.suppresses_iff] at hal
      rw [Run.callNext_suppressed hr hal he]
      refine .ended (n := n) rfl ?_ (by rw [Run.exhausted, Run.actsOf_finish, hx ⟨k, hk, hlt⟩]; exact hc)
        (.exhausted ha hk (by omega)) (fun _ _ => rfl)
      show (r.state.invocationCount.add .one).sub .one = _
      rw [hn', Double.tally_sub_one (Budget.suppressed_lt ((hb n).2 hc.within) (by rwa [hn'] at hal))]

theorem of_continues (hb : r.state.budget.Enforces limit) (ht : r.target = plan.target)
    (hn : r.state.invocationCount = .tally (n + 1))
    (hc : Course plan limit answer n r.state.request (actsOf r.trace))
    (ha : (answer n).Continues response) :
    Phase plan limit answer signal
      ((r.taking ⟨.inProgress (progressOf response), []⟩).proceed signal) := by
  generalize hr : r.taking ⟨.inProgress (progressOf response), []⟩ = t
  have hs : t.state.stage = .continuing ((delayOf response).getD .zero) := by rw [← hr]; rfl
  have htrace : actsOf t.trace = actsOf r.trace := by rw [← hr, Run.actsOf_taking]
  have hbt : t.state.budget.Enforces limit := by rwa [← hr]
  have hnt : t.state.invocationCount = .tally (n + 1) := by rwa [← hr]
  have hqt : t.state.request = r.state.request.withCallbackContext (contextOf response) := by
    rw [← hr]; rfl
  have hlt : (callsOf t.trace).length = n + 1 := by
    rw [← callsOf_actsOf, htrace]; exact hc.calls_length
  have hal : t.state.budget.allows (t.state.invocationCount.add .one) = true ↔ ∀ k ∈ limit, n + 1 ≤ k := by
    rw [hnt, ← Double.tally_succ]
    exact hbt (n + 1)
  -- there is a wait if a delay is due and the budget allows the call after it
  by_cases hw : Double.zero.lt ((delayOf response).getD .zero) = true ∧ ∀ k ∈ limit, n + 1 ≤ k
  · rw [Run.proceed_pausing hs hw.1 (hal.2 hw.2)]
    refine .waiting rfl hnt (.inr ⟨_, hs⟩) (by rw [← hr]; rfl) hc ha hw.2 hqt ?_
    rw [Run.actsOf_pausing, htrace, pauseOf_positive hw.1]
  · have hskip : Double.zero.lt ((delayOf response).getD .zero) = false ∨
        t.state.budget.allows (t.state.invocationCount.add .one) = false := by
      simpa only [← hal, Decidable.not_and_iff_or_not, Bool.not_eq_true] using hw
    rw [Run.proceed_onward hs hskip]
    refine of_callNext hbt (by rw [← hr]; exact ht) (.inr ⟨_, hs⟩) hnt (by rw [← hr]; rfl) hqt hc ha
      (fun within => ?_) (fun _ => htrace) hlt
    obtain hz | hx := hskip
    · rw [htrace, pauseOf_zero hz, List.append_nil]
    · rw [hal.2 within] at hx; cases hx

theorem of_answer (hb : r.state.budget.Enforces limit) (ht : r.target = plan.target)
    (hn : r.state.invocationCount = .tally (n + 1))
    (hc : Course plan limit answer n r.state.request (actsOf r.trace))
    (ha : answer n = .respond response) :
    Phase plan limit answer signal (r.resumeCall (.responded response) signal) := by
  cases h : Envelope.check response with
  | error e =>
    rw [Run.resumeCall_rejected h]
    exact .ended rfl hn (by simpa [Run.fail] using hc) (.rejected ha h) nofun
  | ok report =>
    rw [Run.resumeCall_accepted h]
    obtain ⟨event, ws⟩ := report
    cases event with
    | success e =>
      rw [Run.proceed_terminal rfl]
      exact .ended rfl hn (by simpa using hc) (.succeeded ha h) nofun
    | failed e =>
      rw [Run.proceed_terminal rfl]
      exact .ended rfl hn (by simpa using hc) (.handlerFailed ha h) nofun
    | inProgress e =>
      obtain ⟨rfl, rfl⟩ := Envelope.check_inProgress h
      exact of_continues hb ht hn hc ⟨ha, h⟩

end Phase

end Lifecycle
