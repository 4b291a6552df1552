import Lifecycle.Proofs.Run.Cancellation
import Lifecycle.Proofs.Run.Tracked

/- Two runs of one plan under two budgets.

   A budget decides nothing but whether the next call may be made. So the run under the
   larger of two budgets goes in step with the run under the smaller one, of which it is
   the copy with the other budget (`withBudget`), until the smaller budget is used up:
   from there it goes on alone (`Outrun`). -/
namespace Lifecycle

open Envelope (progressOf)

namespace RunState

def withBudget (s : RunState) (b : Budget) : RunState := { s with budget := b }

variable {s : RunState} {b : Budget}

theorem withBudget_stage : (s.withBudget b).stage = s.stage := rfl

theorem begin_withBudget
    (h : b.allows (s.invocationCount.add .one) = s.budget.allows (s.invocationCount.add .one)) :
    (s.withBudget b).begin = s.begin.map (·.withBudget b) := by
  have counted : (s.withBudget b).countCall = s.countCall.map (·.withBudget b) := by
    simp only [countCall, withBudget, h]
    split
    · rfl
    · cases s.lastEvent with
      | none => rfl
      | some event => cases event <;> rfl
  unfold begin
  rw [withBudget_stage, counted]
  cases s.stage <;> rfl

end RunState

/-- What a call comes to that is answered without an abort, if it comes to anything. -/
def Answer.result? : Answer → Option CallResult
  | .respond response => some (.responded response)
  | .fail e => some (.failed e)
  | .hang => none
  | .crash message => some (.crashed (.thrown message))

namespace Run

def withBudget (r : Run) (b : Budget) : Run := { r with state := r.state.withBudget b }

/-- Whether a run has used up its budget, and another one has gone on from there. -/
structure Outrun (r r' : Run) : Prop where
  demand : r.demand = .nothing
  exhausted : ∃ e, r.state.stage = .exhausted e
  acts : actsOf r.trace <+: actsOf r'.trace

variable {r : Run} {b : Budget} {signal : Signal}

theorem Outrun.follows {r' r'' : Run} (h : Outrun r r') (hf : r'.Follows r'') : Outrun r r'' := by
  obtain ⟨more, hm, -, -⟩ := hf.trace
  refine ⟨h.demand, h.exhausted, h.acts.trans ?_⟩
  rw [hm, actsOf_append]
  exact List.prefix_append _ _

/-! ## One step under two budgets -/

theorem callNext_withBudget (h : b.allows (r.state.invocationCount.add .one) =
      r.state.budget.allows (r.state.invocationCount.add .one)) :
    (r.withBudget b).callNext signal = (r.callNext signal).withBudget b := by
  cases signal with
  | some reason => rfl
  | none =>
    have begun : (r.withBudget b).state.begin = r.state.begin.map (·.withBudget b) :=
      RunState.begin_withBudget h
    simp only [callNext, begun]
    cases r.state.begin with
    | error e => rfl
    | ok s =>
      show (if s.isTerminal then _ else _) = withBudget (if s.isTerminal then _ else _) b
      split <;> rfl

theorem proceed_withBudget (h : b.allows (r.state.invocationCount.add .one) =
      r.state.budget.allows (r.state.invocationCount.add .one)) :
    (r.withBudget b).proceed signal = (r.proceed signal).withBudget b := by
  have next : (r.withBudget b).callNext signal = (r.callNext signal).withBudget b :=
    callNext_withBudget h
  have stage : (r.withBudget b).state.stage = r.state.stage := rfl
  have allowed : (r.withBudget b).state.budget.allows ((r.withBudget b).state.invocationCount.add .one) =
      r.state.budget.allows (r.state.invocationCount.add .one) := h
  unfold proceed
  rw [stage, allowed, next]
  cases r.state.stage with
  | continuing delay =>
    dsimp only
    split <;> rfl
  | _ => rfl

/-- A run that is in step gets the same answer, and stays in step unless its budget is used up. -/
theorem resumeCall_withBudget (result : CallResult)
    (more : ∀ count, r.state.budget.allows count = true → b.allows count = true) :
    (r.withBudget b).resumeCall result none = (r.resumeCall result none).withBudget b ∨
      Outrun (r.resumeCall result none) ((r.withBudget b).resumeCall result none) := by
  obtain ⟨fault, rfl⟩ | ⟨stage, hd⟩ | ⟨response, hc⟩ := result.decided
  · exact .inl rfl
  · left
    cases hd with
    | failed => rfl
    | rejected hc =>
      rw [resumeCall_rejected hc, resumeCall_rejected hc]
      rfl
    | succeeded hc =>
      rw [resumeCall_accepted hc, resumeCall_accepted hc, proceed_terminal rfl, proceed_terminal rfl]
      rfl
    | handlerFailed hc =>
      rw [resumeCall_accepted hc, resumeCall_accepted hc, proceed_terminal rfl, proceed_terminal rfl]
      rfl
  · rw [hc.responded, resumeCall_accepted hc.accepted, resumeCall_accepted hc.accepted]
    generalize ht : r.taking ⟨.inProgress (progressOf response), []⟩ = t
    have ht' : (r.withBudget b).taking ⟨.inProgress (progressOf response), []⟩ = t.withBudget b := by
      rw [← ht]
      rfl
    have hs : t.state.stage = .continuing (progressOf response).delaySeconds := by rw [← ht]; rfl
    have he : t.state.lastEvent = some (.inProgress (progressOf response)) := by rw [← ht]; rfl
    have hb : t.state.budget = r.state.budget := by rw [← ht]; rfl
    rw [← hb] at more
    rw [ht']
    cases allowed : t.state.budget.allows (t.state.invocationCount.add .one) with
    | true =>
      refine .inl (proceed_withBudget ?_)
      rw [allowed]
      exact more _ allowed
    | false =>
      cases further : b.allows (t.state.invocationCount.add .one) with
      | false =>
        refine .inl (proceed_withBudget ?_)
        rw [allowed, further]
      | true =>
        right
        rw [proceed_onward hs (.inr allowed), callNext_suppressed (.inr ⟨_, hs⟩) allowed he]
        refine ⟨rfl, ⟨_, rfl⟩, ?_⟩
        obtain ⟨more', hm, -, -⟩ := (follows_proceed (r := t.withBudget b) none).trace
        rw [hm, actsOf_append]
        show actsOf (exhausted t _).trace <+: _
        rw [exhausted, actsOf_finish]
        exact List.prefix_append _ _

end Run

namespace Session

variable {script : Script} {plan : Plan} {origin s s₁ s₁' s' : Session} {r r' r₁ r₁' : Run} {b b' : Budget}

/-- A run and one under a larger budget, each with its session: in step, or the first is over. -/
inductive Abreast (b' : Budget) (s : Session) (r : Run) (s' : Session) (r' : Run) : Prop where
  | inStep (session : s' = s) (run : r' = r.withBudget b')
  | outrun (h : r.Outrun r') (calls : s.calls <+: s'.calls) (waits : s.waits <+: s'.waits)

/-! ## Serving two runs -/

section
variable (ha : script.abort = none) (hs : s.signal = none)
include ha hs

theorem signalAfter_unplanned (point : AbortPoint) : script.signalAfter point s.signal = none := by
  rw [hs]
  simp [Script.signalAfter, ha]

theorem serve_call (hd : r.demand = .call) : serve script s r =
    (script.answer s.calls.length).result?.map fun result =>
      (⟨s.calls ++ [(r.target, r.state.request)], s.waits, none⟩, r.resumeCall result none) := by
  simp only [serve, hd, signalAfter_unplanned ha hs]
  cases script.answer s.calls.length <;> rfl

theorem serve_pause {ms : Double} (hd : r.demand = .wait ms) : serve script s r =
    some (⟨s.calls, s.waits ++ [ms], none⟩, r.callNext none) := by
  simp only [serve, hd, signalAfter_unplanned ha hs]
  rfl

theorem serve_abreast (tracked : Tracked script origin plan b s r)
    (more : ∀ count, b.allows count = true → b'.allows count = true) :
    (serve script s r = none ∧ serve script s (r.withBudget b') = none) ∨
    ∃ s₁ r₁ s₁' r₁', serve script s r = some (s₁, r₁) ∧
      serve script s (r.withBudget b') = some (s₁', r₁') ∧ s₁.signal = none ∧
      Abreast b' s₁ r₁ s₁' r₁' := by
  obtain ⟨last, -, poised⟩ := tracked.poised
  cases poised with
  | calling demand =>
    have hb := tracked.budget
    rw [serve_call ha hs demand, serve_call ha hs (r := r.withBudget b') demand]
    cases (script.answer s.calls.length).result? with
    | none => exact .inl ⟨rfl, rfl⟩
    | some result =>
      refine .inr ⟨_, _, _, _, rfl, rfl, rfl, ?_⟩
      rw [← hb] at more
      obtain inStep | outrun := Run.resumeCall_withBudget result more
      · exact .inStep rfl inStep
      · exact .outrun outrun (List.prefix_refl _) (List.prefix_refl _)
  | waiting demand count _ _ allowed =>
    refine .inr ⟨_, _, _, _, serve_pause ha hs demand, serve_pause ha hs (r := r.withBudget b') demand,
      rfl, .inStep rfl ?_⟩
    -- there is a wait only before a call that the smaller budget allows
    rw [Double.tally_succ, ← count] at allowed
    refine Run.callNext_withBudget ?_
    rw [allowed]
    rw [tracked.budget] at allowed
    exact more _ allowed
  | ended demand => exact .inl ⟨serve_over demand, serve_over (r := r.withBudget b') demand⟩
  | crashed demand =>
    left
    constructor
    · simp only [serve, demand]
    · have demand' : (r.withBudget b').demand = r.demand := rfl
      simp only [serve, demand', demand]

end

theorem play_outrun (h : r.Outrun r') (calls : s.calls <+: s'.calls) (waits : s.waits <+: s'.waits)
    (fuel : Nat) :
    Abreast b' s r (play script fuel s' r').1 (play script fuel s' r').2 := by
  have step : ∀ s₁ r₁ s₂ r₂, r.Outrun r₁ ∧ s.calls <+: s₁.calls ∧ s.waits <+: s₁.waits →
      Served script s₁ r₁ s₂ r₂ → r.Outrun r₂ ∧ s.calls <+: s₂.calls ∧ s.waits <+: s₂.waits := by
    rintro s₁ r₁ s₂ r₂ ⟨h, calls, waits⟩ hs
    cases hs with
    | call =>
      exact ⟨h.follows (Run.follows_resumeCall _ _), calls.trans (List.prefix_append _ _), waits⟩
    | wait =>
      exact ⟨h.follows (Run.follows_resumeWait _ _), calls, waits.trans (List.prefix_append _ _)⟩
  obtain ⟨outrun, calls', waits'⟩ := play_induction
    (P := fun s' r' => r.Outrun r' ∧ s.calls <+: s'.calls ∧ s.waits <+: s'.waits) step fuel
    ⟨h, calls, waits⟩
  exact .outrun outrun calls' waits'

theorem play_abreast (ha : script.abort = none) (hs : s.signal = none)
    (tracked : Tracked script origin plan b s r)
    (more : ∀ count, b.allows count = true → b'.allows count = true) (fuel : Nat) :
    Abreast b' (play script fuel s r).1 (play script fuel s r).2
      (play script fuel s (r.withBudget b')).1 (play script fuel s (r.withBudget b')).2 := by
  induction fuel generalizing s r with
  | zero => exact .inStep rfl rfl
  | succ fuel ih =>
    obtain ⟨h, h'⟩ | ⟨s₁, r₁, s₁', r₁', h, h', hs₁, abreast⟩ := serve_abreast ha hs tracked more
    · rw [play_idle h, play_idle h']
      exact .inStep rfl rfl
    · rw [play_next h, play_next h']
      cases abreast with
      | inStep session run =>
        subst session run
        exact ih hs₁ ((served_of_serve h).tracked tracked)
      | outrun outrun calls waits =>
        -- the first run is over, so the rest of the fuel goes to the second one alone
        show Abreast b' (play script fuel s₁ r₁).1 (play script fuel s₁ r₁).2 _ _
        rw [play_idle (serve_over outrun.demand)]
        exact play_outrun outrun calls waits fuel

theorem start_withBudget (plan : Plan) (b b' : Budget) :
    (Run.start plan b none).withBudget b' = .start plan b' none := by
  rw [Run.start_eq, Run.start_eq]
  refine (Run.callNext_withBudget (r := ⟨plan.target, .initial plan.request b, .nothing, []⟩) ?_).symm
  exact (Budget.allows_first b').trans (Budget.allows_first b).symm

theorem play_more {fuel : Nat} (hd : (play script fuel s r).2.demand = .nothing) (more : Nat) :
    play script (fuel + more) s r = play script fuel s r := by
  rw [play_add, play_idle (serve_over hd)]

/-- A run that has used up its budget has made the first call and all that the budget adds. -/
theorem Underway.exhausted_calls {k : Nat} {limit : Option Nat} {e : InProgressEvent}
    (h : Underway script origin plan b limit s r) (hk : ∀ k' ∈ limit, k' = k) (hd : r.demand = .nothing)
    (he : r.state.stage = .exhausted e) : (callsOf r.trace).length = k + 1 := by
  obtain ⟨n, request, -, course, ends, -⟩ | ⟨reason, -, stage, -⟩ := h.phase.of_nothing hd
  · have hmade := course.calls_length
    rw [callsOf_actsOf] at hmade
    rw [he] at ends
    cases ends with
    | exhausted _ hlimit hn =>
      have hwithin := course.within _ hlimit
      have hbound := hk _ hlimit
      omega
  · rw [he] at stage
    cases stage

theorem Underway.calls_over {limit : Option Nat} (h : Underway script origin plan b limit s r)
    (hd : r.demand = .nothing) : s.calls = origin.calls ++ callsOf r.trace := by
  have hcalls := h.calls
  rw [Run.dueCalls, hd, List.append_nil] at hcalls
  exact hcalls.symm

/-- **A larger budget changes nothing but where a run stops.** Without an abort, a run that does not
    use up its budget is the same under any larger one, and one that does is the beginning of it. -/
theorem budget_monotone {k : Nat} {limit : Option Nat} (hb : b.Adds (some k)) (hb' : b'.Adds limit)
    (larger : ∀ k' ∈ limit, k ≤ k') (ha : script.abort = none) (hs : origin.signal = none)
    {fuel fuel' : Nat} (hp : play script fuel origin (.start plan b none) = (s, r))
    (hp' : play script fuel' origin (.start plan b' none) = (s', r'))
    (hd : r.demand = .nothing) (hd' : r'.demand = .nothing) :
    ((∀ e, r.state.stage ≠ .exhausted e) →
      s' = s ∧ r'.trace = r.trace ∧ r'.state = { r.state with budget := b' }) ∧
    ∀ e, r.state.stage = .exhausted e →
      (callsOf r.trace).length = k + 1 ∧ callsOf r.trace = (callsOf r'.trace).take (k + 1) ∧
      waitsOf r.trace <+: waitsOf r'.trace ∧ actsOf r.trace <+: actsOf r'.trace ∧
      s.calls = s'.calls.take (origin.calls.length + (k + 1)) ∧ s.waits <+: s'.waits := by
  have tracked := tracked_start script plan b origin
  rw [hs] at tracked
  have abreast : Abreast b' s r s' r' := by
    have h := play_abreast ha hs tracked (Budget.allows_larger hb hb' larger) (fuel + fuel')
    rw [start_withBudget, play_more (by rw [hp]; exact hd), Nat.add_comm fuel fuel',
      play_more (by rw [hp']; exact hd'), hp, hp'] at h
    exact h
  constructor
  · intro unexhausted
    cases abreast with
    | inStep session run =>
      subst session run
      exact ⟨rfl, rfl, rfl⟩
    | outrun h =>
      obtain ⟨e, he⟩ := h.exhausted
      exact absurd he (unexhausted e)
  · intro e he
    have hu := play_underway script plan origin hb.enforces fuel
    have hu' := play_underway script plan origin hb'.enforces fuel'
    rw [hs] at hu hu'
    rw [hp] at hu
    rw [hp'] at hu'
    have hlen : (callsOf r.trace).length = k + 1 := by
      refine hu.exhausted_calls (fun k' hk' => ?_) hd he
      cases (Budget.mem_enforced.1 hk').1
      rfl
    have acts : actsOf r.trace <+: actsOf r'.trace ∧ s.waits <+: s'.waits := by
      cases abreast with
      | inStep session run =>
        subst session run
        exact ⟨List.prefix_refl _, List.prefix_refl _⟩
      | outrun h _ waits => exact ⟨h.acts, waits⟩
    obtain ⟨rest, hrest⟩ := acts.1
    have hcalls : callsOf r'.trace = callsOf r.trace ++ callsOf rest := by
      rw [← callsOf_actsOf, ← hrest, callsOf_append, callsOf_actsOf]
    have hwaits : waitsOf r'.trace = waitsOf r.trace ++ waitsOf rest := by
      rw [← waitsOf_actsOf, ← hrest, waitsOf_append, waitsOf_actsOf]
    have htake : callsOf r.trace = (callsOf r'.trace).take (k + 1) := by
      rw [hcalls, ← hlen, List.take_left']
      rfl
    refine ⟨hlen, htake, ⟨_, hwaits.symm⟩, acts.1, ?_, acts.2⟩
    rw [hu.calls_over hd, hu'.calls_over hd', List.take_length_add_append, ← htake]

/-- A handler that succeeds with its third call: a bound of one uses up its budget before that. -/
theorem third_call_needs_two :
    let waiting : Answer := .respond (.object [("status", .text "IN_PROGRESS"),
      ("callbackDelaySeconds", .number (.ofNat 2))])
    let script : Script := ⟨[waiting, waiting, .respond (.object [("status", .text "SUCCESS")])], none⟩
    let plan : Plan :=
      ⟨⟨"http://localhost", "handler"⟩, ⟨.create, .object [], .object [], "token-1"⟩⟩
    let small := play script 9 (.begin script) (.start plan (.bounded (.ofNat 1)) none)
    let large := play script 9 (.begin script) (.start plan (.bounded (.ofNat 2)) none)
    small.2.demand = .nothing ∧ large.2.demand = .nothing ∧
      (∃ e, small.2.state.stage = .exhausted e) ∧
      callsOf small.2.trace = (callsOf large.2.trace).take 2 ∧
      waitsOf small.2.trace <+: waitsOf large.2.trace := by
  intro waiting script plan small large
  have hb : (Budget.bounded (.ofNat 1)).Adds (some 1) := .bounded (by decide +kernel)
  have hb' : (Budget.bounded (.ofNat 2)).Adds (some 2) := .bounded (by decide +kernel)
  have hd : small.2.demand = .nothing := Demand.eq_nothing (by decide +kernel)
  have hd' : large.2.demand = .nothing := Demand.eq_nothing (by decide +kernel)
  have hname : small.2.state.stage.name = "done_exhausted" := by decide +kernel
  obtain ⟨e, he⟩ : ∃ e, small.2.state.stage = .exhausted e := by
    cases hstage : small.2.state.stage with
    | exhausted e => exact ⟨e, rfl⟩
    | _ => rw [hstage] at hname; exact absurd hname (by simp only [Stage.name]; decide)
  have larger : ∀ k' ∈ some 2, 1 ≤ k' := by
    rintro k' ⟨⟩
    decide
  obtain ⟨-, exhausts⟩ := budget_monotone hb hb' larger rfl rfl (Prod.eta small).symm
    (Prod.eta large).symm hd hd'
  obtain ⟨-, calls, waits, -⟩ := exhausts e he
  exact ⟨hd, hd', ⟨e, he⟩, calls, waits⟩

end Session
end Lifecycle
