import Lifecycle.Proofs.Run.Duration

/- How a run has ended, told from what the handler has seen and answered.

   A session knows its calls and its script, so it knows the last answer, the event in it
   (`LastEvent`) and what else ends a run (`Faulted`). A run that is over stands where
   these say, one lemma for each way of ending. -/
namespace Lifecycle

theorem Answer.Gives.unique {a : Answer} {signal signal' : Signal} {result result' : CallResult}
    (h : a.Gives signal result) (h' : a.Gives signal' result')
    (since : ∀ reason, signal = some reason → signal' = some reason) : result = result' := by
  cases h with
  | responded => cases h'; rfl
  | failed => cases h'; rfl
  | abandoned =>
    rw [since _ rfl] at h'
    cases h'
    rfl
  | crashed => cases h'; rfl

namespace Session

open Envelope (progressOf)

variable {script : Script} {origin s : Session} {plan : Plan} {budget : Budget} {r : Run}
  {made : Nat} {last : Option CallResult} {stage : Stage}

/-- The last call since the origin of a session was answered with a response that holds an event. -/
def LastEvent (script : Script) (origin s : Session) (event : Event) : Prop :=
  origin.calls.length < s.calls.length ∧ ∃ response warnings,
    script.answer (s.calls.length - 1) = .respond response ∧
      Envelope.check response = .ok ⟨event, warnings⟩

/-- What makes a run end in error: it was aborted before its first call, the last call failed or was
    never answered before an abort, its response is no event, or it is in progress and an abort came. -/
inductive Faulted (script : Script) (origin s : Session) : RunError → Prop where
  | unsent {reason : AbortReason} (uncalled : s.calls.length = origin.calls.length)
      (aborted : s.signal = some reason) : Faulted script origin s (.call (.cancelledBy reason))
  | failed {e : CallError} (called : origin.calls.length < s.calls.length)
      (answer : script.answer (s.calls.length - 1) = .fail e) : Faulted script origin s (.call e)
  | abandoned {reason : AbortReason} (called : origin.calls.length < s.calls.length)
      (answer : script.answer (s.calls.length - 1) = .hang) (aborted : s.signal = some reason) :
      Faulted script origin s (.call (.cancelledBy reason))
  | rejected {response : Value} {e : EventError} (called : origin.calls.length < s.calls.length)
      (answer : script.answer (s.calls.length - 1) = .respond response)
      (check : Envelope.check response = .error e) : Faulted script origin s (.event e)
  | stopped {e : InProgressEvent} {reason : AbortReason}
      (inProgress : LastEvent script origin s (.inProgress e)) (aborted : s.signal = some reason) :
      Faulted script origin s (.call (.cancelledBy reason))

/-! ## The last answer -/

theorem LastResult.of_answer {answer : Answer} {result : CallResult}
    (h : LastResult script origin s last) (called : origin.calls.length < s.calls.length)
    (answered : script.answer (s.calls.length - 1) = answer) (gives : answer.Gives s.signal result) :
    last = some result := by
  cases h with
  | uncalled calls => omega
  | called _ gives' since =>
    rw [answered] at gives'
    rw [gives'.unique gives since]

theorem LastResult.answered {response : Value} (h : LastResult script origin s (some (.responded response))) :
    origin.calls.length < s.calls.length ∧ script.answer (s.calls.length - 1) = .respond response := by
  cases h with
  | called made gives => exact ⟨made, answer_of_gives gives⟩

theorem LastResult.lastEvent {response : Value} {event : Event} {warnings : List Warning}
    (h : LastResult script origin s (some (.responded response)))
    (hc : Envelope.check response = .ok ⟨event, warnings⟩) : LastEvent script origin s event :=
  ⟨h.answered.1, response, warnings, h.answered.2, hc⟩

/-- An event in progress is the last one exactly when the last call lets the run go on with it. -/
theorem LastEvent.continues {e : InProgressEvent} (h : LastEvent script origin s (.inProgress e))
    (hlast : LastResult script origin s last) :
    ∃ response, e = progressOf response ∧ last = some (.responded response) ∧
      (CallResult.responded response).Continues response := by
  obtain ⟨called, response, warnings, answer, hc⟩ := h
  obtain ⟨rfl, rfl⟩ := Envelope.check_inProgress hc
  exact ⟨response, rfl, hlast.of_answer called answer .responded, rfl, hc⟩

/-! ## The ways to end -/

theorem succeeded_iff {e : SuccessEvent} (hlast : LastResult script origin s last)
    (h : Concluded budget made s.signal last stage) :
    stage = .succeeded e ↔ LastEvent script origin s (.success e) := by
  constructor
  · rintro rfl
    cases h with
    | decided hd =>
      cases hd with
      | succeeded hc => exact hlast.lastEvent hc
  · rintro ⟨called, response, warnings, answer, hc⟩
    rw [hlast.of_answer called answer .responded] at h
    exact h.of_decides (.succeeded hc)

theorem failed_iff {e : FailedEvent} (hlast : LastResult script origin s last)
    (h : Concluded budget made s.signal last stage) :
    stage = .failed e ↔ LastEvent script origin s (.failed e) := by
  constructor
  · rintro rfl
    cases h with
    | decided hd =>
      cases hd with
      | handlerFailed hc => exact hlast.lastEvent hc
  · rintro ⟨called, response, warnings, answer, hc⟩
    rw [hlast.of_answer called answer .responded] at h
    exact h.of_decides (.handlerFailed hc)

theorem exhausted_iff {e : InProgressEvent} (hlast : LastResult script origin s last)
    (h : Concluded budget made s.signal last stage) :
    stage = .exhausted e ↔
      LastEvent script origin s (.inProgress e) ∧ s.signal = none ∧
        budget.allows (.tally (made + 1)) = false := by
  constructor
  · rintro rfl
    cases h with
    | decided hd => cases hd
    | @exhausted result response continues unaborted suppressed =>
      obtain ⟨rfl, accepted⟩ := continues
      exact ⟨hlast.lastEvent accepted, unaborted, suppressed⟩
  · rintro ⟨inProgress, unaborted, -⟩
    obtain ⟨response, rfl, rfl, continues⟩ := inProgress.continues hlast
    exact (h.of_continues continues unaborted).2

theorem errored_iff {error : RunError} (hlast : LastResult script origin s last)
    (h : Concluded budget made s.signal last stage) :
    stage = .errored error ↔ Faulted script origin s error := by
  constructor
  · rintro rfl
    cases h with
    | unsent aborted =>
      cases hlast with
      | uncalled calls => exact .unsent calls aborted
    | decided hd =>
      cases hd with
      | failed =>
        obtain _ | ⟨called, gives, since⟩ := hlast
        generalize ha : script.answer (s.calls.length - 1) = answer at gives
        cases gives with
        | failed => exact .failed called ha
        | abandoned => exact .abandoned called ha (since _ rfl)
      | rejected hc => exact .rejected hlast.answered.1 hlast.answered.2 hc
    | @stopped result response reason continues aborted =>
      obtain ⟨rfl, accepted⟩ := continues
      exact .stopped (hlast.lastEvent accepted) aborted
  · intro hf
    cases hf with
    | unsent uncalled aborted =>
      cases hlast with
      | uncalled calls =>
        cases h with
        | unsent aborted' =>
          rw [aborted] at aborted'
          cases aborted'
          rfl
      | called made => omega
    | failed called answer =>
      rw [hlast.of_answer called answer .failed] at h
      exact h.of_decides .failed
    | @abandoned reason called answer aborted =>
      have gives : Answer.hang.Gives s.signal (.failed (.cancelledBy reason)) := by
        rw [aborted]
        exact .abandoned
      rw [hlast.of_answer called answer gives] at h
      exact h.of_decides .failed
    | rejected called answer hc =>
      rw [hlast.of_answer called answer .responded] at h
      exact h.of_decides (.rejected hc)
    | stopped inProgress aborted =>
      obtain ⟨response, rfl, rfl, continues⟩ := inProgress.continues hlast
      cases h with
      | decided hd => exact absurd hd continues.not_decides
      | exhausted _ unaborted => rw [aborted] at unaborted; cases unaborted
      | stopped _ aborted' =>
        rw [aborted] at aborted'
        cases aborted'
        rfl

/-- A run that a handler which throws nothing has brought to no further demand is over. -/
theorem Tracked.over_or_underway (prompt : ∀ n message, script.answer n ≠ .crash message)
    (h : Tracked script origin plan budget s r) :
    (r.demand = .nothing ∧ ∃ last, LastResult script origin s last ∧
      r.state.invocationsIssued = .tally (s.calls.length - origin.calls.length) ∧
      Concluded budget (s.calls.length - origin.calls.length) s.signal last r.state.stage) ∨
    (r.demand ≠ .nothing ∧ (∀ fault, r.demand ≠ .crashed fault) ∧ r.state.isTerminal = false) := by
  obtain ⟨last, hlast, poised⟩ := h.poised
  cases poised with
  | calling demand running =>
    refine .inr ⟨by simp [demand], by simp [demand], ?_⟩
    rw [RunState.isTerminal, running]
    rfl
  | waiting demand _ ready =>
    refine .inr ⟨by simp [demand], by simp [demand], ?_⟩
    rw [RunState.isTerminal]
    obtain hs | ⟨delay, hs⟩ := ready
    · rw [hs]
      rfl
    · rw [hs]
      rfl
  | ended demand issued _ concluded =>
    rw [h.budget] at concluded
    exact .inl ⟨demand, last, hlast, issued, concluded⟩
  | crashed demand thrown =>
    subst thrown
    obtain _ | ⟨-, gives, -⟩ := hlast
    generalize ha : script.answer (s.calls.length - 1) = answer at gives
    cases gives
    exact absurd ha (prompt _ _)

end Session
end Lifecycle
