import Lifecycle.Proofs.Log.Chronicle
import Lifecycle.Proofs.Run.Cancellation

/- What the last entry of a run counts.

   The state of a run counts the calls that it has begun, and one more if the budget suppressed it. The
   outcome takes that one off again (`RunState.invocationsIssued`); the last entry of the log does not.
   So the two agree, with each other and with the calls that the handler has seen, for every way to end
   but one: a run that used up its budget tells its log of one call that it never made
   (`summary_counts`). -/
namespace Lifecycle

def LogEntry.invocationCount? (e : LogEntry) : Option Double :=
  (Member.find? "invocationCount" e.members).bind fun | .number x => some x | _ => none

/-- The calls that a run which made so many has begun: one more, if its budget was used up and
    suppressed that one. -/
def Outcome.begun (o : Outcome) (made : Nat) : Nat :=
  match o.ending with
  | .budgetExhausted .. => made + 1
  | _ => made

theorem RunState.invocationCount_eq {t : RunState} {o : Outcome} {made : Nat}
    (h : Outcome.ofState? t = some o) (issued : t.invocationsIssued = .tally made)
    (suppressed : ∀ e, t.stage = .exhausted e → t.invocationCount = .tally (made + 1)) :
    t.invocationCount = .tally (o.begun made) := by
  obtain ⟨ending, he, rfl⟩ := Option.map_eq_some_iff.1 h
  unfold Outcome.ending? at he
  unfold invocationsIssued at issued
  cases hs : t.stage with
  | exhausted e =>
    rw [hs] at he
    cases he
    exact suppressed e hs
  | _ =>
    rw [hs] at he issued
    cases he <;> exact issued

theorem Outcome.exhausted_of_ending {t : RunState} {o : Outcome} {bound : Double} {e : InProgressEvent}
    (h : Outcome.ofState? t = some o) (he : o.ending = .budgetExhausted bound e) :
    ∃ event, t.stage = .exhausted event := by
  obtain ⟨ending, hending, rfl⟩ := Option.map_eq_some_iff.1 h
  unfold Outcome.ending? at hending
  cases hs : t.stage <;> rw [hs] at hending <;> cases hending <;> cases he
  exact ⟨_, rfl⟩

/-- Whether one call more is counted can be told until the count is stuck. -/
theorem Outcome.tally_begun {o : Outcome} {made : Nat}
    (grows : ∀ bound e, o.ending = .budgetExhausted bound e → made < 2 ^ 53) :
    Double.tally (o.begun made) = .tally made ↔ ∀ bound e, o.ending ≠ .budgetExhausted bound e := by
  unfold begun
  cases he : o.ending with
  | budgetExhausted bound e =>
    have hn := grows bound e he
    have differ : Double.tally (made + 1) ≠ .tally made := by
      intro same
      have values := congrArg Double.toInt? same
      rw [Double.toInt?_tally hn, Double.toInt?_tally hn.le, Option.some.injEq] at values
      omega
    simp only [differ, ne_eq, Ending.budgetExhausted.injEq, not_and, false_iff, not_forall, not_not]
    exact ⟨bound, e, rfl, rfl⟩
  | _ => simp only [ne_eq, reduceCtorEq, not_false_eq_true, implies_true]

section
variable {α : Type} {f : LogEntry → Option α} {script : Script} {first n : Nat} {plan : Plan}
  {sights pause : List Sight}

/-- The entries before the last one say nothing to who reads nothing in an entry of their kinds. -/
theorem Chronicle.silent (h : Chronicle script first plan n sights)
    (paused : Pause script first plan n pause) (waiting : ∀ d, f (.waiting d) = none)
    (invoking : ∀ n context, f (.invoking n context) = none) (warned : ∀ n w, f (.warned n w) = none)
    (responded : ∀ n s, f (.responded n s) = none) :
    (Sight.log (sights ++ pause)).filterMap f = [] := by
  have quiet {n : Nat} {pause : List Sight} (paused : Pause script first plan n pause) :
      (Sight.log pause).filterMap f = [] := by
    cases paused with
    | none => rfl
    | asked => exact List.filterMap_cons_none (waiting _)
  induction h generalizing pause with
  | begun => exact quiet paused
  | @call n sights before context _ pausedBefore ih =>
    have answered : ((script.answer (first + n)).entries (n + 1)).filterMap f = [] := by
      rw [Answer.filterMap_entries f _ (responded _)]
      exact List.filterMap_eq_nil_iff.2 fun w _ => warned _ w
    have called : (Sight.log [ownEntry plan (.invoking (n + 1) context),
        .called plan.target (plan.request.withCallbackContext context)]).filterMap f = [] :=
      List.filterMap_cons_none (invoking _ _)
    rw [Sight.log_append, List.filterMap_append, quiet paused, Sight.log_append, Sight.log_append,
      Sight.log_entries, List.filterMap_append, List.filterMap_append, ih pausedBefore, called, answered]
    rfl

end

namespace Session

variable {script : Script} {plan : Plan} {budget : Budget} {origin s : Session} {r : Run}

/-- **How a finished run counts its calls**, whatever the script, the budget and the moment of an abort, as
    long as no call throws. Its outcome tells the calls that the handler has seen, as doubles count them.
    The last entry of its log, which is the only one with a count, tells as many unless the budget was
    used up: then it tells one more, the call that was suppressed. -/
theorem summary_counts {fuel : Nat}
    (hp : play script fuel origin (.start plan budget origin.signal) = (s, r))
    (ended : r.demand = .nothing) :
    ∃ o, Outcome.ofState? r.state = some o ∧
      s.calls = origin.calls ++ Sight.calls r.sights ∧
      o.summary.invocations = .tally (Sight.calls r.sights).length ∧
      (∃ earlier, Sight.log r.sights = earlier ++
        [.finished r.state.stage.name (.tally (o.begun (Sight.calls r.sights).length))]) ∧
      (Sight.log r.sights).filterMap LogEntry.invocationCount? =
        [.tally (o.begun (Sight.calls r.sights).length)] ∧
      (Double.tally (o.begun (Sight.calls r.sights).length) = .tally (Sight.calls r.sights).length ↔
        ∀ bound e, o.ending ≠ .budgetExhausted bound e) := by
  have seen : Seen origin s r := by
    have := play_seen script plan budget origin fuel
    rwa [hp] at this
  have charted : Charted script origin plan budget s r := by
    have := play_charted script plan budget origin fuel
    rwa [hp] at this
  obtain ⟨tracked, n, -, -, recorded⟩ := charted
  obtain ⟨last, -, poised⟩ := tracked.poised
  obtain ⟨issued, concluded⟩ := poised.of_nothing ended
  obtain ⟨o, outcome, invocations⟩ := outcome_of_terminal (s := r.state) concluded.terminal
  have own : r.sights = r.trace.map (Sight.of plan.request) := by
    obtain ⟨context, request⟩ := tracked.request
    rw [Run.sights, request]
    rfl
  have calls : s.calls = origin.calls ++ Sight.calls r.sights := by
    rw [own, Sight.calls_of, seen.calls, Run.dueCalls, ended, List.append_nil]
  have made : s.calls.length - origin.calls.length = (Sight.calls r.sights).length := by
    rw [calls, List.length_append, Nat.add_sub_cancel_left]
  rw [made] at issued poised
  have begun := RunState.invocationCount_eq outcome issued fun e hs => (poised.of_exhausted ended hs).1
  have agreed := Outcome.tally_begun (o := o) fun bound e he => by
    obtain ⟨event, hs⟩ := Outcome.exhausted_of_ending outcome he
    exact (poised.of_exhausted ended hs).2
  obtain ⟨_, ⟨sights, pause, chronicle, paused, rfl⟩, last⟩ := recorded.of_nothing ended
  have silent : (Sight.log (sights ++ pause)).filterMap LogEntry.invocationCount? = [] :=
    chronicle.silent paused (fun _ => rfl) (fun _ _ => rfl) (fun _ _ => rfl) fun _ _ => rfl
  have log : Sight.log r.sights = Sight.log (sights ++ pause) ++
      [.finished r.state.stage.name (.tally (o.begun (Sight.calls r.sights).length))] := by
    rw [← begun, own, last, Sight.log_append]
    rfl
  refine ⟨o, outcome, calls, invocations.trans issued, ⟨_, log⟩, ?_, agreed⟩
  rw [log, List.filterMap_append, silent]
  rfl

/-- A response in progress and then success: two calls, and the log says so. -/
theorem second_call_counted :
    let script : Script := ⟨[.respond (.object [("status", .text "IN_PROGRESS")]),
      .respond (.object [("status", .text "SUCCESS")])], none⟩
    let plan : Plan :=
      ⟨⟨"http://localhost", "handler"⟩, ⟨.create, .object [], .object [], "token-1"⟩⟩
    let run := play script 2 (.begin script) (.start plan (.bounded (.ofNat 1)) none)
    run.2.demand = .nothing ∧ (Sight.calls run.2.sights).length = 2 ∧
      (Sight.log run.2.sights).filterMap LogEntry.invocationCount? = [.ofNat 2] := by
  intro script plan run
  have ended : run.2.demand = .nothing := Demand.eq_nothing (by decide +kernel)
  have made : (Sight.calls run.2.sights).length = 2 := by decide +kernel
  obtain ⟨o, outcome, -, -, -, counted, agreed⟩ := summary_counts (Prod.eta run).symm ended
  have succeeded : ∀ bound e, o.ending ≠ .budgetExhausted bound e := by
    intro bound e he
    obtain ⟨event, hs⟩ := Outcome.exhausted_of_ending outcome he
    have name : run.2.state.stage.name = "done_success" := by decide +kernel
    rw [hs] at name
    cases name
  rw [made] at counted agreed
  rw [agreed.2 succeeded, Double.tally_exact (by decide)] at counted
  exact ⟨ended, made, counted⟩

/-- A run that uses up a bound of zero makes one call and tells its log of two. -/
theorem suppressed_call_told :
    let script : Script := ⟨[.respond (.object [("status", .text "IN_PROGRESS")])], none⟩
    let plan : Plan :=
      ⟨⟨"http://localhost", "handler"⟩, ⟨.create, .object [], .object [], "token-1"⟩⟩
    let run := play script 1 (.begin script) (.start plan (.bounded (.ofNat 0)) none)
    run.2.demand = .nothing ∧ run.1.calls.length = 1 ∧
      (Outcome.ofState? run.2.state).map (fun o => o.summary.invocations) = some .one ∧
      (Sight.log run.2.sights).filterMap LogEntry.invocationCount? = [.ofNat 2] ∧
      (Sight.log run.2.sights).filterMap LogEntry.invocationCount? ≠ [.ofNat 1] := by
  intro script plan run
  exact ⟨Demand.eq_nothing (by decide +kernel), by decide +kernel, by decide +kernel, by decide +kernel,
    by decide +kernel⟩

end Session

end Lifecycle
