import Lifecycle.Proofs.Run.Course

/- Runs played against a script.

   `Underway` ties a run to the session that serves it: the session has seen the calls
   and the waits of the run's trace, apart from the one under way, and the run is in a
   phase of its course. It holds from the start and is kept by every demand that is
   served, so of every played run, however long. -/
namespace Lifecycle

/-- What an answer makes of a call, under the signal as it is then; a call that is never answered
    comes to something only once the signal is aborted. -/
inductive Answer.Gives : Answer → Signal → CallResult → Prop where
  | responded {response : Value} {signal : Signal} :
      Gives (.respond response) signal (.responded response)
  | failed {e : CallError} {signal : Signal} : Gives (.fail e) signal (.failed e)
  | abandoned {reason : AbortReason} : Gives .hang (some reason) (.failed (.cancelledBy reason))
  | crashed {message : Text} {signal : Signal} :
      Gives (.crash message) signal (.crashed (.thrown message))

namespace Demand

def isNothing : Demand → Bool
  | .nothing => true
  | _ => false

theorem eq_nothing {d : Demand} (h : d.isNothing = true) : d = .nothing := by
  cases d with
  | nothing => rfl
  | _ => cases h

end Demand

namespace Session

variable {script : Script} {plan : Plan} {budget : Budget} {limit : Option Nat}
  {origin s s' : Session} {r r' : Run}

/-- A number is the count by ones of the calls that were made since the origin of a session. -/
def Tallies (origin s : Session) (x : Double) : Prop :=
  ∃ made, s.calls.length = origin.calls.length + made ∧ x = .tally made

/-! ## One demand -/

/-- Serving a demand serves a call or a wait at its own moment, and resumes the run under the signal that
    this leaves. -/
inductive Served (script : Script) (s : Session) (r : Run) : Session → Run → Prop where
  | call {signal : Signal} {result : CallResult} (demand : r.demand = .call)
      (left : script.signalAfter (.call (s.calls.length + 1)) s.signal = signal)
      (gives : (script.answer s.calls.length).Gives signal result) :
      Served script s r ⟨s.calls ++ [(r.target, r.state.request)], s.waits, signal⟩
        (r.resumeCall result signal)
  | wait {signal : Signal} {ms : Double} (demand : r.demand = .wait ms)
      (left : script.signalAfter (.wait (s.waits.length + 1)) s.signal = signal) :
      Served script s r ⟨s.calls, s.waits ++ [ms], signal⟩
        (r.resumeWait (signal.map .cancelledBy) signal)

theorem served_of_serve (h : serve script s r = some (s', r')) : Served script s r s' r' := by
  unfold serve at h
  cases hd : r.demand with
  | call =>
    simp only [hd] at h
    cases ha : script.answer s.calls.length with
    | respond response =>
      simp only [ha, Option.some.injEq, Prod.mk.injEq] at h
      obtain ⟨rfl, rfl⟩ := h
      exact .call hd rfl (ha ▸ .responded)
    | fail e =>
      simp only [ha, Option.some.injEq, Prod.mk.injEq] at h
      obtain ⟨rfl, rfl⟩ := h
      exact .call hd rfl (ha ▸ .failed)
    | hang =>
      simp only [ha, Option.map_eq_some_iff, Prod.mk.injEq] at h
      obtain ⟨reason, hs, rfl, rfl⟩ := h
      exact .call hd rfl (ha ▸ hs ▸ .abandoned)
    | crash message =>
      simp only [ha, Option.some.injEq, Prod.mk.injEq] at h
      obtain ⟨rfl, rfl⟩ := h
      exact .call hd rfl (ha ▸ .crashed)
  | wait ms =>
    simp only [hd, Option.some.injEq, Prod.mk.injEq] at h
    obtain ⟨rfl, rfl⟩ := h
    exact .wait hd rfl
  | nothing => simp [hd] at h
  | crashed fault => simp [hd] at h

/-! ## What has been seen -/

/-- The handler and the sleeper have seen the calls and the waits of a run since it began, apart from the
    one that is under way. -/
structure Seen (origin s : Session) (r : Run) : Prop where
  calls : origin.calls ++ callsOf r.trace = s.calls ++ r.dueCalls
  waits : origin.waits ++ waitsOf r.trace = s.waits ++ r.dueWaits

/-- What was under way has been seen, and what a run adds to its trace is what it demands next. -/
theorem Seen.follow (h : Seen origin s r) (hf : r.Follows r')
    (hc : s'.calls = s.calls ++ r.dueCalls) (hw : s'.waits = s.waits ++ r.dueWaits) :
    Seen origin s' r' := by
  obtain ⟨-, -, -, more, htrace, hcalls, hwaits⟩ := hf
  constructor
  · rw [htrace, callsOf_append, ← List.append_assoc, h.calls, hcalls, hc]
  · rw [htrace, waitsOf_append, ← List.append_assoc, h.waits, hwaits, hw]

theorem Served.seen (h : Seen origin s r) (hs : Served script s r s' r') :
    Seen origin s' r' := by
  cases hs with
  | call demand =>
    exact h.follow (Run.follows_resumeCall _ _) (by simp [Run.dueCalls, demand])
      (by simp [Run.dueWaits, demand])
  | wait demand =>
    exact h.follow (Run.follows_resumeWait _ _) (by simp [Run.dueCalls, demand])
      (by simp [Run.dueWaits, demand])

theorem seen_start (plan : Plan) (budget : Budget) (origin : Session) :
    Seen origin origin (.start plan budget origin.signal) := by
  rw [Run.start_eq]
  obtain ⟨-, -, -, more, htrace, hcalls, hwaits⟩ := Run.follows_callNext
    (r := ⟨plan.target, .initial plan.request budget, .nothing, []⟩) origin.signal
  constructor
  · rw [htrace, List.nil_append, hcalls]
  · rw [htrace, List.nil_append, hwaits]

/-! ## A run under way -/

/-- A run and the session that serves it, since the session `origin` in which it began. -/
structure Underway (script : Script) (origin : Session) (plan : Plan) (budget : Budget)
    (limit : Option Nat) (s : Session) (r : Run) : Prop where
  target : r.target = plan.target
  budget : r.state.budget = budget
  calls : origin.calls ++ callsOf r.trace = s.calls ++ r.dueCalls
  waits : origin.waits ++ waitsOf r.trace = s.waits ++ r.dueWaits
  phase : Phase plan limit (fun n => script.answer (origin.calls.length + n)) s.signal r

theorem underway_start (script : Script) (plan : Plan) (origin : Session)
    (budget : Budget) (limit : Option Nat) :
    Underway script origin plan budget limit origin (.start plan budget origin.signal) := by
  obtain ⟨calls, waits⟩ := seen_start plan budget origin
  have hf := Run.follows_callNext (r := ⟨plan.target, .initial plan.request budget, .nothing, []⟩)
    origin.signal
  rw [← Run.start_eq] at hf
  exact ⟨hf.target, hf.budget, calls, waits, Phase.of_start budget _⟩

/-- Going on from one demand to the next adds to the trace what is demanded next. -/
theorem Underway.follow (h : Underway script origin plan budget limit s r) (hf : r.Follows r')
    (hc : s'.calls = s.calls ++ r.dueCalls) (hw : s'.waits = s.waits ++ r.dueWaits)
    (hp : Phase plan limit (fun n => script.answer (origin.calls.length + n)) s'.signal r') :
    Underway script origin plan budget limit s' r' := by
  obtain ⟨calls, waits⟩ := (Seen.mk h.calls h.waits).follow hf hc hw
  exact ⟨hf.target.trans h.target, hf.budget.trans h.budget, calls, waits, hp⟩

theorem Served.underway (hb : budget.Enforces limit)
    (h : Underway script origin plan budget limit s r) (hs : Served script s r s' r') :
    Underway script origin plan budget limit s' r' := by
  have hbr : r.state.budget.Enforces limit := by rw [h.budget]; exact hb
  cases hs with
  | @call signal result demand aborted gives =>
    refine h.follow (Run.follows_resumeCall _ _) (by simp [Run.dueCalls, demand])
      (by simp [Run.dueWaits, demand]) ?_
    obtain ⟨n, count, course⟩ := h.phase.of_call demand
    -- the call that is answered is the next one that the session sees
    have hlen := congrArg List.length h.calls
    have hmade := course.calls_length
    rw [callsOf_actsOf] at hmade
    simp only [List.length_append, hmade, Run.dueCalls, demand, List.length_singleton] at hlen
    rw [show s.calls.length = origin.calls.length + n by omega] at gives
    generalize ha : script.answer (origin.calls.length + n) = a at gives
    cases gives with
    | responded => exact .of_answer hbr h.target count course ha
    | failed => exact .of_fail ha count course
    | abandoned =>
      exact .of_abort _ (by rw [count, hmade])
        (fun k hk => by rw [hmade]; exact Nat.succ_le_succ (course.within k hk))
    | crashed => exact .crashed ⟨_, rfl⟩ ha
  | @wait signal ms demand aborted =>
    refine h.follow (Run.follows_resumeWait _ _) (by simp [Run.dueCalls, demand])
      (by simp [Run.dueWaits, demand]) ?_
    obtain ⟨n, request, acts, response, count, ready, last, course, continues, within, next, trace⟩ :=
      h.phase.of_wait demand
    have hmade : (callsOf r.trace).length = n + 1 := by
      rw [← callsOf_actsOf, trace, callsOf_append, callsOf_pauseOf, List.append_nil]
      exact course.calls_length
    cases signal with
    | none =>
      refine .of_callNext hbr h.target ready count last next course continues (fun _ => trace) ?_ hmade
      rintro ⟨k, hk, hlt⟩
      have := within k hk
      omega
    | some reason =>
      exact .of_abort _ (by rw [count, hmade])
        (fun k hk => by rw [hmade]; exact Nat.succ_le_succ (course.within k hk))

/-! ## A whole run -/

theorem play_idle (hs : serve script s r = none) (fuel : Nat) : play script fuel s r = (s, r) :=
  Run.drive_idle hs fuel

theorem play_next (hs : serve script s r = some (s', r')) (fuel : Nat) :
    play script (fuel + 1) s r = play script fuel s' r' :=
  Run.drive_next hs fuel

theorem play_add (a b : Nat) (s : Session) (r : Run) :
    play script (a + b) s r = play script b (play script a s r).1 (play script a s r).2 :=
  Run.drive_add a b s r

theorem play_succ {fuel : Nat} {first : Run} (hp : play script fuel origin first = (s, r))
    (hs : serve script s r = some (s', r')) : play script (fuel + 1) origin first = (s', r') := by
  rw [play_add, hp]
  exact play_next hs 0

/-- What every way of serving a demand preserves holds at the end of a run if it holds at its start. -/
theorem play_induction {P : Session → Run → Prop}
    (step : ∀ s r s' r', P s r → Served script s r s' r' → P s' r') (fuel : Nat) (h : P s r) :
    P (play script fuel s r).1 (play script fuel s r).2 :=
  Run.drive_induction (fun s r s' r' h hs => step s r s' r' h (served_of_serve hs)) fuel h

theorem play_seen (script : Script) (plan : Plan) (budget : Budget) (origin : Session) (fuel : Nat) :
    Seen origin (play script fuel origin (.start plan budget origin.signal)).1
      (play script fuel origin (.start plan budget origin.signal)).2 :=
  play_induction (fun _ _ _ _ h hs => hs.seen h) fuel (seen_start plan budget origin)

theorem play_underway (script : Script) (plan : Plan) (origin : Session) (hb : budget.Enforces limit)
    (fuel : Nat) :
    Underway script origin plan budget limit
      (play script fuel origin (.start plan budget origin.signal)).1
      (play script fuel origin (.start plan budget origin.signal)).2 :=
  play_induction (fun _ _ _ _ h hs => hs.underway hb h) fuel (underway_start script plan origin budget limit)

theorem play_signal (ha : script.abort = none) (hs : s.signal = none) (fuel : Nat) (r : Run) :
    (play script fuel s r).1.signal = none := by
  refine play_induction (P := fun s _ => s.signal = none) (fun s r s' r' hsig hserved => ?_) fuel hs
  have after (point : AbortPoint) : script.signalAfter point s.signal = none := by
    simp [Script.signalAfter, hsig, ha]
  cases hserved with
  | call _ left _ => exact left.symm.trans (after _)
  | wait _ left => exact left.symm.trans (after _)

theorem perform_signal (plan : Plan) (budget : Budget) (ha : script.abort = none)
    (hs : s.signal = none) : (perform script s plan budget).1.signal = none :=
  play_signal ha hs _ _

/-! ## A run that its budget never stops -/

section
variable {response : Value} (allowed : ∀ n, budget.allows (.tally (n + 1)) = true)
  (ha : script.abort = none) (hs : origin.signal = none)
  (atOnce : Double.zero.lt (Envelope.progressOf response).delaySeconds = false)
include allowed ha hs atOnce

/-- After `m` responses in progress call `m + 1` is under way, whatever the bound is. -/
theorem play_onward (plan : Plan) {m : Nat}
    (answers : ∀ i < m, (script.answer (origin.calls.length + i)).Continues response) :
    ∃ s r, play script m origin (.start plan budget none) = (s, r) ∧ r.demand = .call ∧
      s.signal = none ∧ r.state.budget = budget ∧ r.state.invocationCount = .tally (m + 1) ∧
      s.calls.length = origin.calls.length + m := by
  induction m with
  | zero =>
    refine ⟨_, _, rfl, ?_, hs, ?_, ?_, rfl⟩
    all_goals rw [Run.start_eq, Run.callNext_allowed (.inl rfl) (Budget.allows_first budget)]
    · rfl
    · rfl
    · exact RunState.calling_initial_count _ _
  | succ m ih =>
    obtain ⟨s, r, played, demand, unaborted, hb, count, calls⟩ := ih fun i hi => answers i (by omega)
    obtain ⟨responded, accepted⟩ := answers m (Nat.lt_succ_self m)
    have signal : script.signalAfter (.call (s.calls.length + 1)) s.signal = none := by
      simp [Script.signalAfter, unaborted, ha]
    have served : serve script s r =
        some (⟨s.calls ++ [(r.target, r.state.request)], s.waits, none⟩,
          r.resumeCall (.responded response) none) := by
      simp only [serve, demand, calls, responded]
      rw [← calls, signal]
    have next : r.state.invocationCount.add .one = .tally (m + 1 + 1) := by rw [count, ← Double.tally_succ]
    have further : r.state.budget.allows (r.state.invocationCount.add .one) = true := by
      rw [hb, next]
      exact allowed (m + 1)
    obtain ⟨calling, count'⟩ | ⟨-, -, -, positive⟩ := Run.resumeCall_onward accepted further
    · refine ⟨_, _, play_succ played served, calling, rfl, ?_, count'.trans next, ?_⟩
      · rw [(Run.follows_resumeCall _ _).budget, hb]
      · rw [List.length_append, calls]
        rfl
    · rw [atOnce] at positive
      cases positive

end

/-- A handler that is in progress for `m` calls, and successful then. -/
def lateSuccess (m : Nat) : Script :=
  ⟨List.replicate m (.respond (.object [("status", .text "IN_PROGRESS")])) ++
    [.respond (.object [("status", .text "SUCCESS")])], none⟩

theorem lateSuccess_early {m i : Nat} (hi : i < m) :
    ((lateSuccess m).answer i).Continues (.object [("status", .text "IN_PROGRESS")]) := by
  refine ⟨?_, rfl⟩
  simp [lateSuccess, Script.answer, List.getElem?_append, hi]

theorem lateSuccess_last (m : Nat) :
    (lateSuccess m).answer m = .respond (.object [("status", .text "SUCCESS")]) := by
  simp [lateSuccess, Script.answer]

/-- Under a budget that allows every call such a handler is called until it succeeds. -/
theorem lateSuccess_awaited (allowed : ∀ n, budget.allows (.tally (n + 1)) = true) (plan : Plan)
    (m : Nat) :
    ∃ s r e, play (lateSuccess m) (m + 1) (.begin (lateSuccess m)) (.start plan budget none) = (s, r) ∧
      r.demand = .nothing ∧ r.state.stage = .succeeded e ∧ s.calls.length = m + 1 := by
  have atOnce : Double.zero.lt
      (Envelope.progressOf (.object [("status", .text "IN_PROGRESS")])).delaySeconds = false := by
    decide +kernel
  have answers : ∀ i < m, ((lateSuccess m).answer ((Session.begin (lateSuccess m)).calls.length + i)).Continues
      (.object [("status", .text "IN_PROGRESS")]) := by
    intro i hi
    rw [show (Session.begin (lateSuccess m)).calls.length = 0 from rfl, Nat.zero_add]
    exact lateSuccess_early hi
  have fresh : (Session.begin (lateSuccess m)).signal = none := rfl
  obtain ⟨s, r, played, demand, unaborted, -, -, calls⟩ :=
    play_onward allowed rfl fresh atOnce plan answers
  have made : s.calls.length = m := by rw [calls]; exact Nat.zero_add m
  have signal : (lateSuccess m).signalAfter (.call (s.calls.length + 1)) s.signal = none := by
    rw [unaborted]
    rfl
  have served : serve (lateSuccess m) s r = some (⟨s.calls ++ [(r.target, r.state.request)], s.waits, none⟩,
      r.resumeCall (.responded (.object [("status", .text "SUCCESS")])) none) := by
    simp only [serve, demand, signal]
    rw [made, lateSuccess_last]
  exact ⟨_, _, _, play_succ played served, rfl, rfl, by simp [made]⟩

/-! ## The course of a finished run -/

/-- **A finished run has taken the course of its answers to its end.** Without an abort its calls
    and waits are those that the responses in progress lead to, one after the other, the answer to
    the last call has ended it, and the handler and the sleeper have seen just these. -/
theorem finished_course (hb : budget.Adds limit) (ha : script.abort = none)
    (hs : origin.signal = none) {fuel : Nat}
    (hp : play script fuel origin (.start plan budget none) = (s, r)) (hd : r.demand = .nothing) :
    ∃ n request,
      Course plan (Budget.enforced limit) (fun n => script.answer (origin.calls.length + n)) n request
        (actsOf r.trace) ∧
      Ends (Budget.enforced limit) n (script.answer (origin.calls.length + n)) r.state.stage ∧
      s.calls = origin.calls ++ callsOf (actsOf r.trace) ∧
      s.waits = origin.waits ++ waitsOf (actsOf r.trace) := by
  have hu := play_underway script plan origin hb.enforces fuel
  have hsig := play_signal ha hs fuel (.start plan budget none)
  rw [hs, hp] at hu
  rw [hp] at hsig
  have hcalls : s.calls = origin.calls ++ callsOf (actsOf r.trace) := by
    simpa [callsOf_actsOf, Run.dueCalls, hd] using hu.calls.symm
  have hwaits : s.waits = origin.waits ++ waitsOf (actsOf r.trace) := by
    simpa [waitsOf_actsOf, Run.dueWaits, hd] using hu.waits.symm
  obtain ⟨n, request, -, course, ends, -⟩ | ⟨reason, aborted, -⟩ := hu.phase.of_nothing hd
  · exact ⟨n, request, course, ends, hcalls, hwaits⟩
  · rw [show s.signal = none from hsig] at aborted
    cases aborted

/-- A response in progress that asks for a delay of two seconds, then success. -/
theorem delayed_success_course :
    let script : Script := ⟨[.respond (.object [("status", .text "IN_PROGRESS"),
      ("callbackDelaySeconds", .number (.ofNat 2))]),
      .respond (.object [("status", .text "SUCCESS")])], none⟩
    let plan : Plan :=
      ⟨⟨"http://localhost", "handler"⟩, ⟨.create, .object [], .object [], "token-1"⟩⟩
    let run := play script 3 (.begin script) (.start plan (.bounded (.ofNat 1)) none)
    run.2.demand = .nothing ∧ ∃ n request,
      Course plan (some 1) (fun n => script.answer (0 + n)) n request (actsOf run.2.trace) ∧
        Ends (some 1) n (script.answer (0 + n)) run.2.state.stage := by
  intro script plan run
  have hb : (Budget.bounded (.ofNat 1)).Adds (some 1) := .bounded (by decide +kernel)
  have hd : run.2.demand = .nothing := Demand.eq_nothing (by decide +kernel)
  obtain ⟨n, request, course, ends, -, -⟩ :=
    finished_course hb rfl rfl (Prod.eta run).symm hd
  exact ⟨hd, n, request, course, ends⟩

/-- A bound of 2^53 - 1 added calls does not end a run: a handler that succeeds with the call after
    them has that call made, and the run ends in success. -/
theorem bound_passed :
    let budget : Budget := .bounded (.ofNat (2 ^ 53 - 1))
    let plan : Plan :=
      ⟨⟨"http://localhost", "handler"⟩, ⟨.create, .object [], .object [], "token-1"⟩⟩
    budget.Adds (some (2 ^ 53 - 1)) ∧
      (∀ i < 2 ^ 53, ((lateSuccess (2 ^ 53)).answer i).Continues
        (.object [("status", .text "IN_PROGRESS")])) ∧
      ∃ s r e, play (lateSuccess (2 ^ 53)) (2 ^ 53 + 1) (.begin (lateSuccess (2 ^ 53)))
          (.start plan budget none) = (s, r) ∧
        r.demand = .nothing ∧ r.state.stage = .succeeded e ∧ s.calls.length = 2 ^ 53 - 1 + 2 := by
  intro budget plan
  have hb : budget.Adds (some (2 ^ 53 - 1)) := .bounded (Double.toInt?_ofNat (by decide))
  exact ⟨hb, fun _ hi => lateSuccess_early hi,
    lateSuccess_awaited (hb.unending (by decide)) plan (2 ^ 53)⟩

end Session
end Lifecycle
