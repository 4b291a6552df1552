import Lifecycle.Proofs.Run.Steps

/- How the last answer decides a run.

   What a call comes to ends a run by itself, lets it go on, or is a fault; which of them
   depends on the answer alone (`CallResult.decided`). A run that is over was ended by its
   last answer, or that answer was in progress and the run stopped there, because the
   budget was used up or the signal was aborted (`Concluded`). `Poised` says this of a run
   at any moment, under any budget and whatever serves its demands. -/
namespace Lifecycle

open Envelope (progressOf)

namespace CallResult

/-- How what a call comes to ends a run by itself. -/
inductive Decides : CallResult → Stage → Prop where
  | failed {e : CallError} : Decides (.failed e) (.errored (.call e))
  | rejected {response : Value} {e : EventError} (hc : Envelope.check response = .error e) :
      Decides (.responded response) (.errored (.event e))
  | succeeded {response : Value} {e : SuccessEvent} {ws : List Warning}
      (hc : Envelope.check response = .ok ⟨.success e, ws⟩) :
      Decides (.responded response) (.succeeded e)
  | handlerFailed {response : Value} {e : FailedEvent} {ws : List Warning}
      (hc : Envelope.check response = .ok ⟨.failed e, ws⟩) :
      Decides (.responded response) (.failed e)

/-- Whether a call comes to a response that is accepted as being in progress. -/
structure Continues (result : CallResult) (response : Value) : Prop where
  responded : result = .responded response
  accepted : Envelope.check response = .ok ⟨.inProgress (progressOf response), []⟩

variable {result : CallResult} {response : Value} {stage : Stage}

/-- What a call comes to is a fault, ends the run, or lets it go on. -/
theorem decided (result : CallResult) : (∃ fault, result = .crashed fault) ∨
    (∃ stage, result.Decides stage) ∨ ∃ response, result.Continues response := by
  cases result with
  | crashed fault => exact .inl ⟨fault, rfl⟩
  | failed e => exact .inr (.inl ⟨_, .failed⟩)
  | responded response =>
    refine .inr ?_
    cases hc : Envelope.check response with
    | error e => exact .inl ⟨_, .rejected hc⟩
    | ok report =>
      obtain ⟨event, ws⟩ := report
      cases event with
      | success e => exact .inl ⟨_, .succeeded hc⟩
      | failed e => exact .inl ⟨_, .handlerFailed hc⟩
      | inProgress e =>
        obtain ⟨rfl, rfl⟩ := Envelope.check_inProgress hc
        exact .inr ⟨response, rfl, hc⟩

theorem Continues.not_decides (h : result.Continues response) : ¬ result.Decides stage := by
  obtain ⟨rfl, accepted⟩ := h
  intro hd
  cases hd with
  | rejected hc => rw [accepted] at hc; cases hc
  | succeeded hc => rw [accepted] at hc; cases hc
  | handlerFailed hc => rw [accepted] at hc; cases hc

theorem Decides.unique {stage' : Stage} (h : result.Decides stage) (h' : result.Decides stage') :
    stage = stage' := by
  cases h with
  | failed => cases h'; rfl
  | rejected hc =>
    cases h' with
    | rejected hc' => rw [hc] at hc'; cases hc'; rfl
    | succeeded hc' => rw [hc] at hc'; cases hc'
    | handlerFailed hc' => rw [hc] at hc'; cases hc'
  | succeeded hc =>
    cases h' with
    | rejected hc' => rw [hc] at hc'; cases hc'
    | succeeded hc' => rw [hc] at hc'; cases hc'; rfl
    | handlerFailed hc' => rw [hc] at hc'; cases hc'
  | handlerFailed hc =>
    cases h' with
    | rejected hc' => rw [hc] at hc'; cases hc'
    | succeeded hc' => rw [hc] at hc'; cases hc'
    | handlerFailed hc' => rw [hc] at hc'; cases hc'; rfl

end CallResult

/-- After a response in progress a run goes on from where it has taken the response in. -/
theorem Run.resumeCall_continues (r : Run) {result : CallResult} {response : Value}
    (h : result.Continues response) :
    ∃ t : Run, t.state.stage = .continuing (progressOf response).delaySeconds ∧
      t.state.lastEvent = some (.inProgress (progressOf response)) ∧
      t.state.invocationCount = r.state.invocationCount ∧ t.state.budget = r.state.budget ∧
      ∀ signal, r.resumeCall result signal = t.proceed signal := by
  refine ⟨r.taking ⟨.inProgress (progressOf response), []⟩, rfl, rfl, rfl, rfl, fun signal => ?_⟩
  rw [h.responded, resumeCall_accepted h.accepted]

/-- How a run has ended that has made so many calls, after what the last of them came to, if there was
    one, and under the signal with which it was last resumed. -/
inductive Concluded (budget : Budget) (made : Nat) (signal : Signal) :
    Option CallResult → Stage → Prop where
  | unsent {reason : AbortReason} (aborted : signal = some reason) :
      Concluded budget made signal none (.errored (.call (.cancelledBy reason)))
  | decided {result : CallResult} {stage : Stage} (h : result.Decides stage) :
      Concluded budget made signal (some result) stage
  | exhausted {result : CallResult} {response : Value} (continues : result.Continues response)
      (unaborted : signal = none) (suppressed : budget.allows (.tally (made + 1)) = false) :
      Concluded budget made signal (some result) (.exhausted (progressOf response))
  | stopped {result : CallResult} {response : Value} {reason : AbortReason}
      (continues : result.Continues response) (aborted : signal = some reason) :
      Concluded budget made signal (some result) (.errored (.call (.cancelledBy reason)))

namespace Concluded

variable {budget : Budget} {made : Nat} {signal : Signal} {last : Option CallResult}
  {result : CallResult} {response : Value} {stage : Stage}

theorem terminal (h : Concluded budget made signal last stage) : stage.isTerminal = true := by
  cases h with
  | unsent => rfl
  | decided hd => cases hd <;> rfl
  | exhausted => rfl
  | stopped => rfl

theorem of_decides {stage' : Stage} (h : Concluded budget made signal (some result) stage)
    (hd : result.Decides stage') : stage = stage' := by
  cases h with
  | decided h => exact h.unique hd
  | exhausted continues => exact absurd hd continues.not_decides
  | stopped continues => exact absurd hd continues.not_decides

/-- Without an abort a run ends in error exactly if its last answer ends it so. -/
theorem errored_iff_decides {error : RunError}
    (h : Concluded budget made none (some result) stage) :
    stage = .errored error ↔ result.Decides (.errored error) := by
  refine ⟨?_, h.of_decides⟩
  rintro rfl
  cases h with
  | decided hd => exact hd
  | stopped _ aborted => cases aborted

/-- After a last answer in progress the budget was used up, unless the signal was aborted. -/
theorem of_continues (h : Concluded budget made signal (some result) stage)
    (hc : result.Continues response) (unaborted : signal = none) :
    budget.allows (.tally (made + 1)) = false ∧ stage = .exhausted (progressOf response) := by
  cases h with
  | decided h => exact absurd h hc.not_decides
  | exhausted continues _ suppressed =>
    have hr := hc.responded
    rw [continues.responded] at hr
    cases hr
    exact ⟨suppressed, rfl⟩
  | stopped _ aborted => rw [unaborted] at aborted; cases aborted

end Concluded

/-- Where a run stands that has made so many calls, after what the last of them came to, if there was
    one: its next call is under way, which the budget allows and no abort has forestalled, or the
    wait before that call, or it is over. -/
inductive Poised (last : Option CallResult) (made : Nat) (signal : Signal) (r : Run) : Prop where
  | calling (demand : r.demand = .call) (running : r.state.stage = .running) (unaborted : signal = none)
      (count : r.state.invocationCount = .tally (made + 1))
      (allowed : r.state.budget.allows (.tally (made + 1)) = true)
      (continued : ∀ result ∈ last, ∃ response, result.Continues response)
  | waiting {result : CallResult} {response : Value} {ms : Double} (demand : r.demand = .wait ms)
      (count : r.state.invocationCount = .tally made) (ready : r.state.IsReady)
      (lastEvent : r.state.lastEvent = some (.inProgress (progressOf response)))
      (allowed : r.state.budget.allows (.tally (made + 1)) = true)
      (positive : Double.zero.lt (progressOf response).delaySeconds = true)
      (answered : last = some result) (continues : result.Continues response)
  | ended (demand : r.demand = .nothing) (issued : r.state.invocationsIssued = .tally made)
      (counted : ∀ e, r.state.stage = .exhausted e →
        r.state.invocationCount = .tally (made + 1) ∧ made < 2 ^ 53)
      (concluded : Concluded r.state.budget made signal last r.state.stage)
  | crashed {fault : Fault} (demand : r.demand = .crashed fault) (thrown : last = some (.crashed fault))

namespace Poised

variable {last : Option CallResult} {made : Nat} {result : CallResult} {response : Value}
  {signal : Signal} {r : Run}

/-- A run that goes on after a response in progress calls again, unless the signal is aborted or the
    budget is used up. -/
theorem callNext (count : r.state.invocationCount = .tally made) (ready : r.state.IsReady)
    (lastEvent : r.state.lastEvent = some (.inProgress (progressOf response)))
    (hc : result.Continues response)
    (grows : r.state.budget.allows (.tally (made + 1)) = false → made < 2 ^ 53) :
    Poised (some result) made signal (r.callNext signal) := by
  have next : r.state.invocationCount.add .one = .tally (made + 1) := by rw [count, Double.tally_succ]
  cases signal with
  | some reason => exact .ended rfl count nofun (.stopped hc rfl)
  | none =>
    cases ha : r.state.budget.allows (r.state.invocationCount.add .one) with
    | true =>
      rw [Run.callNext_allowed ready ha]
      rw [next] at ha
      refine .calling rfl rfl rfl next ha ?_
      rintro _ ⟨⟩
      exact ⟨response, hc⟩
    | false =>
      rw [Run.callNext_suppressed ready ha lastEvent]
      rw [next] at ha
      refine .ended rfl ?_ (fun _ _ => ⟨next, grows ha⟩) (.exhausted hc rfl ha)
      show (r.state.invocationCount.add .one).sub .one = .tally made
      rw [next, Double.tally_sub_one (grows ha)]

theorem start (plan : Plan) (budget : Budget) (signal : Signal) :
    Poised none 0 signal (.start plan budget signal) := by
  rw [Run.start_eq]
  cases signal with
  | some reason => exact .ended rfl rfl nofun (.unsent rfl)
  | none =>
    rw [Run.callNext_allowed (.inl rfl) (Budget.allows_first budget)]
    refine .calling rfl rfl rfl (RunState.calling_initial_count _ _) ?_ nofun
    rw [Double.tally_succ, Double.tally_zero]
    exact Budget.allows_first budget

/-- A run that is resumed with what its call came to is decided by it, or goes on. -/
theorem resumeCall (result : CallResult) (signal : Signal) (count : r.state.invocationCount = .tally made)
    (reached : r.state.budget.allows (.tally made) = true) :
    Poised (some result) made signal (r.resumeCall result signal) := by
  obtain ⟨fault, rfl⟩ | ⟨stage, hd⟩ | ⟨response, hc⟩ := result.decided
  · exact .crashed rfl rfl
  · cases hd with
    | failed => exact .ended rfl count nofun (.decided .failed)
    | rejected hc =>
      rw [Run.resumeCall_rejected hc]
      exact .ended rfl count nofun (.decided (.rejected hc))
    | succeeded hc =>
      rw [Run.resumeCall_accepted hc, Run.proceed_terminal rfl]
      exact .ended rfl count nofun (.decided (.succeeded hc))
    | handlerFailed hc =>
      rw [Run.resumeCall_accepted hc, Run.proceed_terminal rfl]
      exact .ended rfl count nofun (.decided (.handlerFailed hc))
  · obtain ⟨t, hs, he, hcount, hbudget, resumed⟩ := r.resumeCall_continues hc
    rw [count] at hcount
    rw [← hbudget] at reached
    rw [resumed]
    by_cases hw : Double.zero.lt (progressOf response).delaySeconds = true ∧
        t.state.budget.allows (t.state.invocationCount.add .one) = true
    · rw [Run.proceed_pausing hs hw.1 hw.2]
      rw [hcount, ← Double.tally_succ] at hw
      exact .waiting rfl hcount (.inr ⟨_, hs⟩) he hw.2 hw.1 rfl hc
    · rw [Run.proceed_onward hs (by simpa only [Decidable.not_and_iff_or_not, Bool.not_eq_true] using hw)]
      exact callNext hcount (.inr ⟨_, hs⟩) he hc (Budget.suppressed_lt reached)

/-! What a demand says of where a run stands. -/

theorem of_call (h : Poised last made signal r) (hd : r.demand = .call) :
    signal = none ∧ r.state.invocationCount = .tally (made + 1) ∧
      r.state.budget.allows (.tally (made + 1)) = true ∧
      ∀ result ∈ last, ∃ response, result.Continues response := by
  cases h with
  | calling _ _ unaborted count allowed continued => exact ⟨unaborted, count, allowed, continued⟩
  | _ => simp_all

theorem of_wait {ms : Double} (h : Poised last made signal r) (hd : r.demand = .wait ms) :
    ∃ result response, last = some result ∧ result.Continues response ∧
      r.state.invocationCount = .tally made ∧ r.state.IsReady ∧
      r.state.lastEvent = some (.inProgress (progressOf response)) ∧
      r.state.budget.allows (.tally (made + 1)) = true ∧
      Double.zero.lt (progressOf response).delaySeconds = true := by
  cases h with
  | waiting _ count ready lastEvent allowed positive answered continues =>
    exact ⟨_, _, answered, continues, count, ready, lastEvent, allowed, positive⟩
  | _ => simp_all

theorem of_nothing (h : Poised last made signal r) (hd : r.demand = .nothing) :
    r.state.invocationsIssued = .tally made ∧ Concluded r.state.budget made signal last r.state.stage := by
  cases h with
  | ended _ issued _ concluded => exact ⟨issued, concluded⟩
  | _ => simp_all

/-- A run that used up its budget has counted the call that was suppressed, and counted it right. -/
theorem of_exhausted {e : InProgressEvent} (h : Poised last made signal r) (hd : r.demand = .nothing)
    (hs : r.state.stage = .exhausted e) :
    r.state.invocationCount = .tally (made + 1) ∧ made < 2 ^ 53 := by
  cases h with
  | ended _ _ counted => exact counted e hs
  | _ => simp_all

/-- A run that is resumed after its wait goes on, unless the signal is aborted by then. -/
theorem resumeWait {ms : Double} (h : Poised last made signal r) (hd : r.demand = .wait ms)
    (signal' : Signal) : Poised last made signal' (r.resumeWait (signal'.map .cancelledBy) signal') := by
  obtain ⟨result, response, rfl, continues, count, ready, lastEvent, allowed, -⟩ := h.of_wait hd
  cases signal' with
  | some reason => exact .ended rfl count nofun (.stopped continues rfl)
  | none =>
    refine callNext count ready lastEvent continues fun suppressed => ?_
    rw [allowed] at suppressed
    cases suppressed

end Poised

end Lifecycle
