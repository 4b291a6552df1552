import Lifecycle.Proofs.Run.Played
import Lifecycle.Proofs.Run.Verdict

/- Runs and the sessions that serve them, under any budget.

   `Tracked` ties a run to the calls that the handler has seen since the run began: they
   all carry the request of its plan, and the run stands where the last of them left it.
   It is kept by every demand that is served, whatever the handler answers, so it holds of
   every played run (`play_tracked`). -/
namespace Lifecycle.Session

variable {script : Script} {plan : Plan} {budget : Budget} {origin s s' : Session} {r r' : Run}

/-- The calls that a session has seen since its origin all belong to the plan of a run: they differ
    from its first request in the context alone. -/
def CallsOwn (plan : Plan) (origin s : Session) : Prop :=
  ∃ own, s.calls = origin.calls ++ own ∧
    ∀ q ∈ own, q.1 = plan.target ∧ ∃ context, q.2 = plan.request.withCallbackContext context

/-- What the last call since the origin of a session came to, or that there was none. -/
inductive LastResult (script : Script) (origin s : Session) : Option CallResult → Prop where
  | uncalled (calls : s.calls.length = origin.calls.length) : LastResult script origin s none
  | called {signal : Signal} {result : CallResult} (made : origin.calls.length < s.calls.length)
      (gives : (script.answer (s.calls.length - 1)).Gives signal result)
      (since : ∀ reason, signal = some reason → s.signal = some reason) :
      LastResult script origin s (some result)

/-- A run and the session that serves it since it began. -/
structure Tracked (script : Script) (origin : Session) (plan : Plan) (budget : Budget)
    (s : Session) (r : Run) : Prop where
  target : r.target = plan.target
  budget : r.state.budget = budget
  request : ∃ context, r.state.request = plan.request.withCallbackContext context
  calls : CallsOwn plan origin s
  poised : ∃ last, LastResult script origin s last ∧
    Poised last (s.calls.length - origin.calls.length) s.signal r

theorem LastResult.of_calls {last : Option CallResult} (h : LastResult script origin s last)
    (hc : s'.calls = s.calls) (hs : ∀ reason, s.signal = some reason → s'.signal = some reason) :
    LastResult script origin s' last := by
  cases h with
  | uncalled calls => exact .uncalled (by rw [hc]; exact calls)
  | called made gives since =>
    exact .called (by rw [hc]; exact made) (by rw [hc]; exact gives)
      (fun reason h => hs reason (since reason h))

theorem LastResult.of_call {signal : Signal} {result : CallResult}
    (hle : origin.calls.length ≤ s.calls.length)
    (gives : (script.answer s.calls.length).Gives signal result) (call : Target × Request) :
    LastResult script origin ⟨s.calls ++ [call], s.waits, signal⟩ (some result) := by
  have hlen : (s.calls ++ [call]).length = s.calls.length + 1 := by simp
  have given : (script.answer ((s.calls ++ [call]).length - 1)).Gives signal result := by
    simpa only [hlen, Nat.add_sub_cancel] using gives
  exact .called (by simp only [hlen]; omega) given (fun _ h => h)

theorem CallsOwn.length_le (h : CallsOwn plan origin s) : origin.calls.length ≤ s.calls.length := by
  obtain ⟨own, hs, -⟩ := h
  rw [hs, List.length_append]
  omega

theorem tracked_start (script : Script) (plan : Plan) (budget : Budget) (origin : Session) :
    Tracked script origin plan budget origin (.start plan budget origin.signal) := by
  have hf := Run.follows_callNext (r := ⟨plan.target, .initial plan.request budget, .nothing, []⟩)
    origin.signal
  rw [← Run.start_eq] at hf
  refine ⟨hf.target, hf.budget, hf.request, ⟨[], by simp, by simp⟩, none, .uncalled rfl, ?_⟩
  rw [Nat.sub_self]
  exact .start plan budget origin.signal

theorem Tracked.follow (h : Tracked script origin plan budget s r) (hf : r.Follows r')
    (calls : CallsOwn plan origin s')
    (poised : ∃ last, LastResult script origin s' last ∧
      Poised last (s'.calls.length - origin.calls.length) s'.signal r') :
    Tracked script origin plan budget s' r' := by
  obtain ⟨context, hq⟩ := h.request
  obtain ⟨context', hq'⟩ := hf.request
  refine ⟨hf.target.trans h.target, hf.budget.trans h.budget, ⟨context', ?_⟩, calls, poised⟩
  rw [hq', hq]
  rfl

theorem Served.tracked (h : Tracked script origin plan budget s r) (hs : Served script s r s' r') :
    Tracked script origin plan budget s' r' := by
  obtain ⟨last, hlast, hpoised⟩ := h.poised
  cases hs with
  | @call signal result demand aborted gives =>
    refine h.follow (Run.follows_resumeCall result signal) ?_
      ⟨some result, LastResult.of_call h.calls.length_le gives _, ?_⟩
    · obtain ⟨own, hs, hown⟩ := h.calls
      refine ⟨own ++ [(r.target, r.state.request)], by rw [hs, List.append_assoc], ?_⟩
      intro q hq
      rcases List.mem_append.1 hq with hq | hq
      · exact hown q hq
      · obtain rfl := List.mem_singleton.1 hq
        exact ⟨h.target, h.request⟩
    · obtain ⟨-, count, allowed, -⟩ := hpoised.of_call demand
      have made : (s.calls ++ [(r.target, r.state.request)]).length - origin.calls.length =
          s.calls.length - origin.calls.length + 1 := by
        have := h.calls.length_le
        simp only [List.length_append, List.length_singleton]
        omega
      simp only [made]
      exact .resumeCall result signal count allowed
  | @wait signal ms demand left =>
    subst left
    refine h.follow (Run.follows_resumeWait _ _) h.calls
      ⟨last, hlast.of_calls rfl ?_, hpoised.resumeWait demand _⟩
    intro reason hs
    rw [hs]
    rfl

theorem play_tracked (script : Script) (plan : Plan) (budget : Budget) (origin : Session)
    (fuel : Nat) :
    Tracked script origin plan budget
      (play script fuel origin (.start plan budget origin.signal)).1
      (play script fuel origin (.start plan budget origin.signal)).2 :=
  play_induction (fun _ _ _ _ h hs => hs.tracked h) fuel (tracked_start script plan budget origin)

end Lifecycle.Session
