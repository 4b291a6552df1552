import Lifecycle.Outcome
import Lifecycle.Proofs.Run.Played

/- What an abort does to a run.

   A signal is aborted before a run, during a call or during a wait. From then on the
   handler is not called again, and at most one more demand is served: a wait that the
   abort cuts short. How the run ends depends only on what was under way. Before a run
   and during a wait it is cancelled; during a call the answer decides, and only a
   response in progress is cancelled. `Standing` is what every demand keeps of a run under
   any budget, and `aborted_run_settles` reads the ending off it. -/
namespace Lifecycle

/-- What a call comes to whose signal is aborted while it is under way. -/
inductive Answer.Settles (reason : AbortReason) : Answer → Stage → Prop where
  | failed {e : CallError} : Settles reason (.fail e) (.errored (.call e))
  | rejected {response : Value} {e : EventError} (hc : Envelope.check response = .error e) :
      Settles reason (.respond response) (.errored (.event e))
  | succeeded {response : Value} {e : SuccessEvent} {ws : List Warning}
      (hc : Envelope.check response = .ok ⟨.success e, ws⟩) :
      Settles reason (.respond response) (.succeeded e)
  | handlerFailed {response : Value} {e : FailedEvent} {ws : List Warning}
      (hc : Envelope.check response = .ok ⟨.failed e, ws⟩) :
      Settles reason (.respond response) (.failed e)
  | inProgress {response : Value} {e : InProgressEvent} {ws : List Warning}
      (hc : Envelope.check response = .ok ⟨.inProgress e, ws⟩) :
      Settles reason (.respond response) (.errored (.call (.cancelledBy reason)))
  | unanswered : Settles reason .hang (.errored (.call (.cancelledBy reason)))

/-- A handler that never throws, and whose cancelled calls are cancelled by the abort. -/
structure Script.Obedient (script : Script) : Prop where
  prompt : ∀ n message, script.answer n ≠ .crash message
  cancels : ∀ n message text, script.answer n = .fail (.cancelled message text) →
    ∃ point reason, script.abort = some (point, reason) ∧
      CallError.cancelled message text = .cancelledBy reason

namespace Session

variable {script : Script} {plan : Plan} {budget : Budget} {origin s s' : Session} {r r' : Run}
  {reason : AbortReason} {stage : Stage}

/-! ## The moment of an abort -/

/-- The planned abort has come: before the run, or with a call or a wait of it. -/
inductive Reached (script : Script) (origin s : Session) (reason : AbortReason) : Prop where
  | before (aborted : origin.signal = some reason)
  | call {n : Nat} (unaborted : origin.signal = none)
      (moment : script.abort = some (.call n, reason))
      (since : origin.calls.length < n) (made : n ≤ s.calls.length)
  | wait {n : Nat} (unaborted : origin.signal = none)
      (moment : script.abort = some (.wait n, reason))
      (since : origin.waits.length < n) (made : n ≤ s.waits.length)

/-- The abort has come during the last call that was made, whose answer settles the run. -/
structure DuringCall (script : Script) (origin : Session) (reason : AbortReason) (s : Session)
    (stage : Stage) : Prop where
  unaborted : origin.signal = none
  moment : script.abort = some (.call s.calls.length, reason)
  since : origin.calls.length < s.calls.length
  settles : (script.answer (s.calls.length - 1)).Settles reason stage

/-- What was under way at the abort of a signal, and how the run ends. -/
inductive CutShort (script : Script) (origin : Session) (reason : AbortReason) (s : Session) :
    Stage → Prop where
  | before (aborted : origin.signal = some reason) (calls : s.calls = origin.calls)
      (waits : s.waits = origin.waits) :
      CutShort script origin reason s (.errored (.call (.cancelledBy reason)))
  | call {stage : Stage} (during : DuringCall script origin reason s stage) :
      CutShort script origin reason s stage
  | wait (unaborted : origin.signal = none)
      (moment : script.abort = some (.wait s.waits.length, reason))
      (since : origin.waits.length < s.waits.length) :
      CutShort script origin reason s (.errored (.call (.cancelledBy reason)))

theorem signalAfter_iff {point : AbortPoint} :
    script.signalAfter point none = some reason ↔ script.abort = some (point, reason) := by
  unfold Script.signalAfter
  cases script.abort with
  | none => simp
  | some planned =>
    obtain ⟨moment, why⟩ := planned
    by_cases h : moment = point <;> simp [h]

theorem signalAfter_some (point : AbortPoint) :
    script.signalAfter point (some reason) = some reason := rfl

/-! ## One demand -/

/-- A call is served with what its answer gives under the signal as it is by then. -/
theorem serve_answered {signal : Signal} {result : CallResult} (hd : r.demand = .call)
    (hs : script.signalAfter (.call (s.calls.length + 1)) s.signal = signal)
    (hg : (script.answer s.calls.length).Gives signal result) :
    serve script s r =
      some (⟨s.calls ++ [(r.target, r.state.request)], s.waits, signal⟩, r.resumeCall result signal) := by
  generalize ha : script.answer s.calls.length = a at hg
  cases hg <;> simp [serve, hd, ha, hs]

theorem serve_woken {signal : Signal} {ms : Double} (hd : r.demand = .wait ms)
    (hs : script.signalAfter (.wait (s.waits.length + 1)) s.signal = signal) :
    serve script s r =
      some (⟨s.calls, s.waits ++ [ms], signal⟩, r.resumeWait (signal.map .cancelledBy) signal) := by
  simp [serve, hd, hs]

theorem serve_over (hd : r.demand = .nothing) : serve script s r = none := by
  simp [serve, hd]

/-! ## When a signal is aborted -/

theorem Reached.later (h : Reached script origin s reason) (hc : s.calls.length ≤ s'.calls.length)
    (hw : s.waits.length ≤ s'.waits.length) : Reached script origin s' reason := by
  cases h with
  | before aborted => exact .before aborted
  | call unaborted moment since made => exact .call unaborted moment since (Nat.le_trans made hc)
  | wait unaborted moment since made => exact .wait unaborted moment since (Nat.le_trans made hw)

theorem Reached.unique {why : AbortReason} (h : Reached script origin s reason)
    (h' : Reached script origin s' why) : reason = why := by
  cases h with
  | before aborted =>
    cases h' with
    | before aborted' => simpa [aborted] using aborted'
    | call unaborted' => rw [aborted] at unaborted'; cases unaborted'
    | wait unaborted' => rw [aborted] at unaborted'; cases unaborted'
  | call unaborted moment =>
    cases h' with
    | before aborted' => rw [unaborted] at aborted'; cases aborted'
    | call _ moment' => rw [moment] at moment'; cases moment'; rfl
    | wait _ moment' => rw [moment] at moment'; cases moment'
  | wait unaborted moment =>
    cases h' with
    | before aborted' => rw [unaborted] at aborted'; cases aborted'
    | call _ moment' => rw [moment] at moment'; cases moment'
    | wait _ moment' => rw [moment] at moment'; cases moment'; rfl

/-- A session since its origin: it has seen at least as much, and its signal is aborted exactly if
    the moment has come. -/
structure Since (script : Script) (origin s : Session) : Prop where
  calls : origin.calls.length ≤ s.calls.length
  waits : origin.waits.length ≤ s.waits.length
  aborted : ∀ reason, s.signal = some reason ↔ Reached script origin s reason

theorem since_origin (script : Script) (origin : Session) : Since script origin origin := by
  refine ⟨Nat.le_refl _, Nat.le_refl _, ?_⟩
  intro reason
  constructor
  · exact .before
  · intro h
    cases h with
    | before aborted => exact aborted
    | call _ _ since made => omega
    | wait _ _ since made => omega

theorem Since.unaborted (h : Since script origin s) (hn : s.signal = none) : origin.signal = none := by
  cases ho : origin.signal with
  | none => rfl
  | some why =>
    rw [(h.aborted why).2 (.before ho)] at hn
    cases hn

theorem Since.keep (h : Since script origin s) (ha : s.signal = some reason)
    (hc : s.calls.length ≤ s'.calls.length) (hw : s.waits.length ≤ s'.waits.length)
    (hs : s'.signal = s.signal) : Since script origin s' := by
  refine ⟨Nat.le_trans h.calls hc, Nat.le_trans h.waits hw, ?_⟩
  have reached := ((h.aborted reason).1 ha).later hc hw
  intro why
  rw [hs, ha]
  constructor
  · intro heq
    exact Option.some.inj heq ▸ reached
  · intro h'
    rw [reached.unique h']

theorem Since.next (h : Since script origin s) (hn : s.signal = none)
    (hc : s.calls.length ≤ s'.calls.length) (hw : s.waits.length ≤ s'.waits.length)
    (hs : ∀ why, s'.signal = some why ↔
      (script.abort = some (.call s'.calls.length, why) ∧ s.calls.length < s'.calls.length) ∨
        (script.abort = some (.wait s'.waits.length, why) ∧ s.waits.length < s'.waits.length))
    (one : s'.calls.length ≤ s.calls.length + 1 ∧ s'.waits.length ≤ s.waits.length + 1) :
    Since script origin s' := by
  refine ⟨Nat.le_trans h.calls hc, Nat.le_trans h.waits hw, ?_⟩
  have notYet : ∀ {why}, ¬ Reached script origin s why := by
    intro why reached
    rw [(h.aborted why).2 reached] at hn
    cases hn
  have unaborted := h.unaborted hn
  have hcalls := h.calls
  have hwaits := h.waits
  intro why
  rw [hs why]
  constructor
  · rintro (⟨moment, hlt⟩ | ⟨moment, hlt⟩)
    · exact .call unaborted moment (by omega) (Nat.le_refl _)
    · exact .wait unaborted moment (by omega) (Nat.le_refl _)
  · intro reached
    cases reached with
    | before aborted => exact (notYet (.before aborted)).elim
    | @call n _ moment since made =>
      have hlt : ¬ n ≤ s.calls.length := fun hle => notYet (.call unaborted moment since hle)
      obtain rfl : n = s'.calls.length := by omega
      exact .inl ⟨moment, by omega⟩
    | @wait n _ moment since made =>
      have hlt : ¬ n ≤ s.waits.length := fun hle => notYet (.wait unaborted moment since hle)
      obtain rfl : n = s'.waits.length := by omega
      exact .inr ⟨moment, by omega⟩

theorem Since.serve (h : Since script origin s) (hs : serve script s r = some (s', r')) :
    Since script origin s' := by
  cases served_of_serve hs with
  | @call signal result demand left gives =>
    subst left
    cases hnow : s.signal with
    | some why => exact h.keep hnow (by simp) (Nat.le_refl _) hnow.symm
    | none =>
      refine h.next hnow (by simp) (Nat.le_refl _) ?_ (by simp)
      intro why
      simp [signalAfter_iff]
  | @wait signal ms demand left =>
    subst left
    cases hnow : s.signal with
    | some why => exact h.keep hnow (Nat.le_refl _) (by simp) hnow.symm
    | none =>
      refine h.next hnow (Nat.le_refl _) (by simp) ?_ (by simp)
      intro why
      simp [signalAfter_iff]

/-! ## What every demand keeps -/

/-- Where a run stands towards an abort: its call is under way and nothing is aborted; a wait is
    under way, at most cut short already by an abort during the call before it; or it is over, by
    the abort if there was one. -/
inductive Standing (script : Script) (origin s : Session) (r : Run) : Prop where
  | calling (demand : r.demand = .call) (unaborted : s.signal = none)
      (allowed : r.state.budget.allows r.state.invocationCount = true)
      (count : ∃ made, s.calls.length = origin.calls.length + made ∧
        r.state.invocationCount = .tally (made + 1))
  | waiting {ms : Double} {e : InProgressEvent} (demand : r.demand = .wait ms)
      (ready : r.state.IsReady) (last : r.state.lastEvent = some (.inProgress e))
      (allowed : r.state.budget.allows (r.state.invocationCount.add .one) = true)
      (count : Tallies origin s r.state.invocationCount)
      (cut : ∀ reason, s.signal = some reason →
        DuringCall script origin reason s (.errored (.call (.cancelledBy reason))))
  | ended (demand : r.demand = .nothing) (terminal : r.state.isTerminal = true)
      (issued : Tallies origin s r.state.invocationsIssued)
      (cut : ∀ reason, s.signal = some reason → CutShort script origin reason s r.state.stage)

theorem Standing.of_call (h : Standing script origin s r) (hd : r.demand = .call) :
    s.signal = none ∧ r.state.budget.allows r.state.invocationCount = true ∧
      ∃ made, s.calls.length = origin.calls.length + made ∧
        r.state.invocationCount = .tally (made + 1) := by
  cases h with
  | calling _ unaborted allowed count => exact ⟨unaborted, allowed, count⟩
  | _ => simp_all

theorem Standing.of_wait {ms : Double} (h : Standing script origin s r) (hd : r.demand = .wait ms) :
    r.state.IsReady ∧ (∃ e, r.state.lastEvent = some (.inProgress e)) ∧
      r.state.budget.allows (r.state.invocationCount.add .one) = true ∧
      Tallies origin s r.state.invocationCount ∧ ∀ reason, s.signal = some reason →
        DuringCall script origin reason s (.errored (.call (.cancelledBy reason))) := by
  cases h with
  | waiting _ ready last allowed count cut => exact ⟨ready, ⟨_, last⟩, allowed, count, cut⟩
  | _ => simp_all

theorem standing_fail {e : RunError}
    (count : Tallies origin s r.state.invocationCount)
    (cut : ∀ reason, s.signal = some reason → CutShort script origin reason s (.errored e)) :
    Standing script origin s (r.fail e) :=
  .ended rfl rfl count cut

theorem standing_callNext {e : InProgressEvent} (unaborted : s.signal = none)
    (ready : r.state.IsReady) (last : r.state.lastEvent = some (.inProgress e))
    (count : Tallies origin s r.state.invocationCount)
    (grows : r.state.budget.allows (r.state.invocationCount.add .one) = false →
      r.state.budget.allows r.state.invocationCount = true) :
    Standing script origin s (r.callNext none) := by
  obtain ⟨made, calls, count⟩ := count
  have next : r.state.invocationCount.add .one = .tally (made + 1) := by rw [count, Double.tally_succ]
  cases ha : r.state.budget.allows (r.state.invocationCount.add .one) with
  | true =>
    rw [Run.callNext_allowed ready ha]
    exact .calling rfl unaborted ha ⟨made, calls, next⟩
  | false =>
    rw [Run.callNext_suppressed ready ha last]
    have reached := grows ha
    rw [count] at reached
    refine .ended rfl rfl ⟨made, calls, ?_⟩ ?_
    · show (r.state.invocationCount.add .one).sub .one = _
      rw [next] at ha ⊢
      rw [Double.tally_sub_one (Budget.suppressed_lt reached ha)]
    · intro reason h
      rw [unaborted] at h
      cases h

theorem standing_start (script : Script) (plan : Plan) (budget : Budget) (origin : Session) :
    Standing script origin origin (.start plan budget origin.signal) := by
  rw [Run.start_eq]
  cases ho : origin.signal with
  | some why =>
    refine standing_fail ⟨0, rfl, rfl⟩ ?_
    intro reason h
    rw [ho] at h
    cases h
    exact .before ho rfl rfl
  | none =>
    rw [Run.callNext_allowed (.inl rfl) (Budget.allows_first budget)]
    refine .calling rfl ho ?_ ⟨0, rfl, RunState.calling_initial_count _ _⟩
    show budget.allows (RunState.initial plan.request budget).calling.invocationCount = true
    rw [RunState.calling_initial_count, Double.tally_succ, Double.tally_zero]
    exact Budget.allows_first budget

/-- A run whose call came to a response: only one in progress goes on, and not after an abort. -/
theorem standing_responded {response : Value}
    (count : Tallies origin s r.state.invocationCount)
    (allowed : r.state.budget.allows r.state.invocationCount = true)
    (during : ∀ reason, s.signal = some reason → ∀ stage,
      (Answer.respond response).Settles reason stage → DuringCall script origin reason s stage) :
    Standing script origin s (r.resumeCall (.responded response) s.signal) := by
  have cut : ∀ stage, (∀ reason, (Answer.respond response).Settles reason stage) →
      ∀ reason, s.signal = some reason → CutShort script origin reason s stage := by
    intro stage settles reason hs
    exact .call (during reason hs stage (settles reason))
  cases hc : Envelope.check response with
  | error e =>
    rw [Run.resumeCall_rejected hc]
    exact standing_fail count (cut _ fun _ => .rejected hc)
  | ok report =>
    rw [Run.resumeCall_accepted hc]
    obtain ⟨event, ws⟩ := report
    cases event with
    | success e =>
      rw [Run.proceed_terminal rfl]
      exact .ended rfl rfl count (cut _ fun _ => .succeeded hc)
    | failed e =>
      rw [Run.proceed_terminal rfl]
      exact .ended rfl rfl count (cut _ fun _ => .handlerFailed hc)
    | inProgress e =>
      have hs : (r.taking ⟨.inProgress e, ws⟩).state.stage = .continuing e.delaySeconds := rfl
      by_cases hw : Double.zero.lt e.delaySeconds = true ∧
          (r.taking ⟨.inProgress e, ws⟩).state.budget.allows
            ((r.taking ⟨.inProgress e, ws⟩).state.invocationCount.add .one) = true
      · -- the wait is demanded even after an abort, which then cuts it short
        rw [Run.proceed_pausing hs hw.1 hw.2]
        exact .waiting rfl (.inr ⟨_, hs⟩) rfl hw.2 count fun reason h => during reason h _ (.inProgress hc)
      · rw [Run.proceed_onward hs (by simpa only [Decidable.not_and_iff_or_not, Bool.not_eq_true] using hw)]
        cases hsig : s.signal with
        | none => exact standing_callNext hsig (.inr ⟨_, hs⟩) rfl count fun _ => allowed
        | some why =>
          refine standing_fail count ?_
          intro reason h
          obtain rfl : why = reason := by simpa [hsig] using h
          exact .call (during why hsig _ (.inProgress hc))

theorem Standing.serve (ho : script.Obedient) (hsince : Since script origin s)
    (h : Standing script origin s r) (hs : serve script s r = some (s', r')) :
    Standing script origin s' r' := by
  have hcalls := hsince.calls
  have hwaits := hsince.waits
  cases served_of_serve hs with
  | @call signal result demand left gives =>
    obtain ⟨unaborted, allowed, count⟩ := h.of_call demand
    rw [unaborted] at left
    have made : (s.calls ++ [(r.target, r.state.request)]).length = s.calls.length + 1 := by simp
    have count' : Tallies origin ⟨s.calls ++ [(r.target, r.state.request)], s.waits, signal⟩
        r.state.invocationCount := by
      obtain ⟨n, calls, count⟩ := count
      exact ⟨n + 1, by rw [made, calls, Nat.add_assoc], count⟩
    -- an abort that comes now comes during the call that the session has just seen
    have during : ∀ reason, signal = some reason → ∀ stage,
        (script.answer s.calls.length).Settles reason stage → DuringCall script origin reason
          ⟨s.calls ++ [(r.target, r.state.request)], s.waits, signal⟩ stage := by
      intro reason h stage settles
      rw [← left, signalAfter_iff, ← made] at h
      refine ⟨hsince.unaborted unaborted, h, by simp only [made]; omega, ?_⟩
      simpa only [made, Nat.add_sub_cancel] using settles
    have cut : ∀ stage, (∀ reason, signal = some reason →
        (script.answer s.calls.length).Settles reason stage) → ∀ reason, signal = some reason →
        CutShort script origin reason
          ⟨s.calls ++ [(r.target, r.state.request)], s.waits, signal⟩ stage := by
      intro stage settles reason h
      exact .call (during reason h stage (settles reason h))
    generalize ha : script.answer s.calls.length = a at gives during cut
    cases gives with
    | responded => exact standing_responded count' allowed during
    | failed => exact standing_fail count' (cut _ fun _ _ => .failed)
    | abandoned =>
      refine standing_fail count' (cut _ ?_)
      intro reason h
      cases h
      exact .unanswered
    | crashed => exact absurd ha (ho.prompt _ _)
  | @wait signal ms demand left =>
    obtain ⟨ready, ⟨e, last⟩, allowed, count, cut⟩ := h.of_wait demand
    cases signal with
    | none =>
      refine standing_callNext rfl ready last count fun suppressed => ?_
      rw [allowed] at suppressed
      cases suppressed
    | some why =>
      refine standing_fail count ?_
      intro reason h
      cases h
      cases hnow : s.signal with
      | none =>
        rw [hnow] at left
        refine .wait (hsince.unaborted hnow) ?_ (by simp; omega)
        simpa using signalAfter_iff.1 left
      | some earlier =>
        rw [hnow] at left
        cases left
        obtain ⟨unaborted, moment, since, settles⟩ := cut why hnow
        exact .call ⟨unaborted, moment, since, settles⟩

/-! ## A whole run -/

theorem play_standing (ho : script.Obedient) (plan : Plan) (budget : Budget) (origin : Session)
    (fuel : Nat) :
    Since script origin (play script fuel origin (.start plan budget origin.signal)).1 ∧
      Standing script origin (play script fuel origin (.start plan budget origin.signal)).1
        (play script fuel origin (.start plan budget origin.signal)).2 := by
  refine Run.drive_induction (P := fun s r => Since script origin s ∧ Standing script origin s r) ?_ fuel
    ⟨since_origin script origin, standing_start script plan budget origin⟩
  intro s r s' r' h hs
  exact ⟨h.1.serve hs, h.2.serve ho h.1 hs⟩

theorem serve_wait (script : Script) {ms : Double} (hd : r.demand = .wait ms) (ha : s.signal = some reason) :
    serve script s r = some (⟨s.calls, s.waits ++ [ms], some reason⟩,
      r.fail (.call (.cancelledBy reason))) := by
  apply serve_woken hd
  rw [ha, signalAfter_some]

/-- After an abort at most one more demand is served. -/
theorem aborted_over (ho : script.Obedient) (hsince : Since script origin s)
    (h : Standing script origin s r) (ha : s.signal = some reason) :
    ∃ s' r', s'.calls = s.calls ∧ s'.signal = some reason ∧ r'.demand = .nothing ∧
      Standing script origin s' r' ∧ ∀ more, play script (1 + more) s r = (s', r') := by
  cases h with
  | calling _ unaborted => rw [ha] at unaborted; cases unaborted
  | ended demand terminal issued cut =>
    refine ⟨s, r, rfl, ha, demand, .ended demand terminal issued cut, ?_⟩
    intro more
    exact play_idle (serve_over demand) _
  | waiting demand ready last allowed count cut =>
    have hs := serve_wait script demand ha
    have standing := (Standing.waiting demand ready last allowed count cut).serve ho hsince hs
    refine ⟨⟨s.calls, _, some reason⟩, _, rfl, rfl, ?_, standing, ?_⟩
    · rfl
    intro more
    rw [Nat.add_comm, play_next hs]
    exact play_idle (serve_over rfl) more

theorem outcome_of_terminal {s : RunState} (h : s.isTerminal = true) :
    ∃ o, Outcome.ofState? s = some o ∧ o.summary.invocations = s.invocationsIssued := by
  unfold RunState.isTerminal at h
  unfold Outcome.ofState? Outcome.ending?
  cases hs : s.stage <;> simp_all [Stage.isTerminal, Outcome.summarise]

theorem CutShort.says (ho : script.Obedient) {message text : Text}
    (h : CutShort script origin reason s (.errored (.call (.cancelled message text)))) :
    CallError.cancelled message text = .cancelledBy reason := by
  generalize hstage : Stage.errored (.call (.cancelled message text)) = stage at h
  cases h with
  | before => cases hstage; rfl
  | wait => cases hstage; rfl
  | call during =>
    obtain ⟨-, moment, -, settles⟩ := during
    generalize ha : script.answer (s.calls.length - 1) = a at settles
    cases settles with
    | failed =>
      cases hstage
      obtain ⟨point, why, moment', heq⟩ := ho.cancels _ message text ha
      rw [moment] at moment'
      cases moment'
      exact heq
    | rejected => cases hstage
    | succeeded => cases hstage
    | handlerFailed => cases hstage
    | inProgress => cases hstage; rfl
    | unanswered => cases hstage; rfl

/-- **Once its signal is aborted a run calls the handler no more and is over after at most one more
    demand.** Its end is that of a cancelled run, unless the abort came during a call whose answer
    ends the run itself. A cancelled run says why, and every such run reports the calls it made. -/
theorem aborted_run_settles (ho : script.Obedient) (plan : Plan) (budget : Budget)
    (origin : Session) {fuel : Nat}
    (hplay : play script fuel origin (.start plan budget origin.signal) = (s, r))
    (ha : Reached script origin s reason) :
    ∃ s' r' o,
      (∀ more, play script (fuel + 1 + more) origin (.start plan budget origin.signal) = (s', r')) ∧
      s'.calls = s.calls ∧ r'.demand = .nothing ∧
      CutShort script origin reason s' r'.state.stage ∧
      (∀ message text, r'.state.stage = .errored (.call (.cancelled message text)) →
        message = "Invocation cancelled: " ++ reason.describe ∧ text = reason.describe) ∧
      Outcome.ofState? r'.state = some o ∧
      Tallies origin s' o.summary.invocations := by
  obtain ⟨hsince, hstanding⟩ := play_standing ho plan budget origin fuel
  rw [hplay] at hsince hstanding
  have haborted := (hsince.aborted reason).2 ha
  obtain ⟨s', r', hcalls, hsignal, hover, standing, hmore⟩ :=
    aborted_over ho hsince hstanding haborted
  cases standing with
  | calling demand => rw [hover] at demand; cases demand
  | waiting demand => rw [hover] at demand; cases demand
  | ended _ terminal issued cut =>
    have hcut := cut reason hsignal
    obtain ⟨o, hout, hinvocations⟩ := outcome_of_terminal terminal
    refine ⟨s', r', o, ?_, hcalls, hover, hcut, ?_, hout, ?_⟩
    · intro more
      rw [Nat.add_assoc, play_add, hplay]
      exact hmore more
    · intro message text hstage
      rw [hstage] at hcut
      have heq := hcut.says ho
      rw [CallError.cancelledBy] at heq
      cases heq
      exact ⟨rfl, rfl⟩
    · rw [hinvocations]
      exact issued

/-- An abort during a call that is answered in progress, with a wait still to come. -/
theorem cancelled_before_wait :
    let script : Script := ⟨[.respond (.object [("status", .text "IN_PROGRESS"),
      ("callbackDelaySeconds", .number (.ofNat 2))])], some (.call 1, .text "stop")⟩
    let plan : Plan :=
      ⟨⟨"http://localhost", "handler"⟩, ⟨.create, .object [], .object [], "token-1"⟩⟩
    let run := play script 1 (.begin script) (.start plan .unbounded none)
    script.Obedient ∧ Reached script (.begin script) run.1 (.text "stop") ∧ run.1.calls.length = 1 ∧
      run.2.demand.isNothing = false ∧
      ∃ s' r' o,
        (∀ more, play script (1 + 1 + more) (.begin script) (.start plan .unbounded none) = (s', r')) ∧
        s'.calls = run.1.calls ∧ r'.demand = .nothing ∧
        CutShort script (.begin script) (.text "stop") s' r'.state.stage ∧
        (∀ message text, r'.state.stage = .errored (.call (.cancelled message text)) →
          message = "Invocation cancelled: " ++ AbortReason.describe (.text "stop") ∧
            text = AbortReason.describe (.text "stop")) ∧
        Outcome.ofState? r'.state = some o ∧
        Tallies (.begin script) s' o.summary.invocations := by
  intro script plan run
  have ha : ∀ n, script.answer n = .respond (.object [("status", .text "IN_PROGRESS"),
      ("callbackDelaySeconds", .number (.ofNat 2))]) := by
    intro n
    cases n <;> rfl
  have ho : script.Obedient := by
    constructor
    · intro n message h
      rw [ha n] at h
      cases h
    · intro n message text h
      rw [ha n] at h
      cases h
  have hcalls : run.1.calls.length = 1 := by decide +kernel
  have reached : Reached script (.begin script) run.1 (.text "stop") := by
    refine .call (n := 1) rfl rfl (by decide) ?_
    rw [hcalls]
  refine ⟨ho, reached, hcalls, by decide +kernel, ?_⟩
  exact aborted_run_settles ho plan .unbounded (.begin script) (Prod.eta run).symm reached

end Session
end Lifecycle
