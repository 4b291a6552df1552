import Lifecycle.Proofs.Run.Duration
import Lifecycle.Run.Concurrent

/- Runs that share a loop do not interfere.

   A history mixes the starts, the answers, the waits and the aborts of any number of runs.
   Each run is what its own events have made of it (`Lane.Reached`), whatever the others do
   in between, and the shared collaborators have seen of it just what it has done
   (`Loop.Kept`). What is left is one run: it calls the handler with nothing but its own
   (`Lane.OwnCalls`), and it is the run that is performed alone against any script with its
   answers and its abort (`Lane.Alone`). -/
namespace Lifecycle

open Session (play perform serve signalAfter_iff signalAfter_some signalAfter_past)

/-! ## One demand, served alone -/

theorem Answer.gives_of_under {a : Answer} {signal : Signal} {result : CallResult}
    (h : a.under signal = some result) : a.Gives signal result := by
  cases a with
  | respond response => cases h; exact .responded
  | fail e => cases h; exact .failed
  | crash message => cases h; exact .crashed
  | hang =>
    obtain ⟨reason, rfl, rfl⟩ := Option.map_eq_some_iff.1 h
    exact .abandoned

/-! ## One run among others -/

namespace Lane

variable {plan : Plan} {budget : Budget} {signal : Signal} {lane lane' : Lane} {script : Script}
  {s : Session}

/-- What an event can do to a run. -/
inductive Next (lane : Lane) : Lane → Prop where
  | unchanged : Next lane lane
  | aborted (reason : AbortReason) (unaborted : lane.abort = none) :
      Next lane { lane with abort := some (lane.moment, reason) }
  | answered {a : Answer} {result : CallResult} (demand : lane.run.demand = .call)
      (gives : a.Gives lane.signal result) :
      Next lane { lane with
        run := lane.run.resumeCall result lane.signal, answers := lane.answers ++ [a] }
  | woken {ms : Double} (demand : lane.run.demand = .wait ms) :
      Next lane { lane with
        run := lane.run.resumeWait (lane.signal.map .cancelledBy) lane.signal, woken := lane.woken + 1 }

theorem next_step (lane : Lane) (event : LaneEvent) : lane.Next (lane.step event) := by
  cases event with
  | aborted reason =>
    obtain ⟨plan, budget, run, answers, woken, abort⟩ := lane
    cases abort with
    | none => exact .aborted reason rfl
    | some planned => exact .unchanged
  | answered a =>
    simp only [step, answer]
    cases demand : lane.run.demand with
    | call =>
      cases given : a.under lane.signal with
      | some result => exact .answered demand (Answer.gives_of_under given)
      | none => exact .unchanged
    | wait ms => exact .unchanged
    | nothing => exact .unchanged
    | crashed fault => exact .unchanged
  | woken =>
    simp only [step, wake]
    cases demand : lane.run.demand with
    | wait ms => exact .woken demand
    | call => exact .unchanged
    | nothing => exact .unchanged
    | crashed fault => exact .unchanged

/-- What the events of a run can make of it, from its start. -/
inductive Reached (plan : Plan) (budget : Budget) (signal : Signal) : Lane → Prop where
  | start : Reached plan budget signal (.start plan budget signal)
  | next {lane lane' : Lane} (h : Reached plan budget signal lane) (step : lane.Next lane') :
      Reached plan budget signal lane'

theorem Next.trace (h : lane.Next lane') : ∃ more, lane'.run.trace = lane.run.trace ++ more := by
  cases h with
  | unchanged => exact ⟨[], (List.append_nil _).symm⟩
  | aborted => exact ⟨[], (List.append_nil _).symm⟩
  | answered =>
    obtain ⟨more, trace, -⟩ := (Run.follows_resumeCall _ _).trace
    exact ⟨more, trace⟩
  | woken =>
    obtain ⟨more, trace, -⟩ := (Run.follows_resumeWait _ _).trace
    exact ⟨more, trace⟩

theorem moment_ne_start (lane : Lane) : lane.moment ≠ .start := by
  unfold moment
  split <;> simp

/-- A run keeps what it was started with. -/
structure Begun (plan : Plan) (budget : Budget) (signal : Signal) (lane : Lane) : Prop where
  plan : lane.plan = plan
  budget : lane.budget = budget
  signal : ∀ reason, lane.abort = some (.start, reason) ↔ signal = some reason

theorem Reached.begun (h : Reached plan budget signal lane) : lane.Begun plan budget signal := by
  induction h with
  | start =>
    refine ⟨rfl, rfl, ?_⟩
    intro reason
    cases signal <;> simp [Lane.start]
  | @next lane lane' h step ih =>
    cases step with
    | unchanged => exact ih
    | answered => exact ⟨ih.plan, ih.budget, ih.signal⟩
    | woken => exact ⟨ih.plan, ih.budget, ih.signal⟩
    | aborted why unaborted =>
      refine ⟨ih.plan, ih.budget, ?_⟩
      intro reason
      rw [← ih.signal reason, unaborted]
      simp [lane.moment_ne_start]

/-! ### Its calls are its own -/

/-- The context of a call: that of the plan with the first one, and later that of the response to the
    call before. -/
inductive OwnContext (lane : Lane) : Nat → Value → Prop where
  | first : OwnContext lane 0 lane.plan.request.callbackContext
  | later {n : Nat} {response : Value} (answered : lane.answers[n]? = some (.respond response)) :
      OwnContext lane (n + 1) (Envelope.contextOf response)

/-- A call of a run, counted from zero, that carries nothing but its own. -/
def OwnCall (lane : Lane) (n : Nat) (call : Target × Request) : Prop :=
  ∃ context, lane.OwnContext n context ∧
    call = (lane.plan.target, lane.plan.request.withCallbackContext context)

/-- All calls of a run are its own, and so is the next one. -/
structure OwnCalls (lane : Lane) : Prop where
  made : (callsOf lane.run.trace).length = lane.answers.length + lane.run.dueCalls.length
  calls : ∀ n call, (callsOf lane.run.trace)[n]? = some call → lane.OwnCall n call
  next : lane.run.isSuspended = true →
    lane.OwnCall lane.answers.length (lane.run.target, lane.run.state.request)

theorem OwnCall.keep {n : Nat} {call : Target × Request} (h : lane.OwnCall n call)
    (hp : lane'.plan = lane.plan) (ha : lane.answers <+: lane'.answers) : lane'.OwnCall n call := by
  obtain ⟨context, own, rfl⟩ := h
  refine ⟨context, ?_, by rw [hp]⟩
  cases own with
  | first => rw [← hp]; exact .first
  | later answered =>
    obtain ⟨more, ha⟩ := ha
    obtain ⟨hlt, -⟩ := List.getElem?_eq_some_iff.1 answered
    apply OwnContext.later
    rw [← ha, List.getElem?_append_left hlt]
    exact answered

/-- A run that goes on makes at most one more call, and that is its own if it would be the next. -/
theorem OwnCalls.follow (h : lane.OwnCalls) (hp : lane'.plan = lane.plan)
    (ha : lane.answers <+: lane'.answers) (hf : lane.run.Follows lane'.run)
    (made : (callsOf lane.run.trace).length = lane'.answers.length)
    (next : lane'.run.isSuspended = true →
      lane'.OwnCall lane'.answers.length (lane'.run.target, lane'.run.state.request)) :
    lane'.OwnCalls := by
  obtain ⟨-, -, -, more, trace, due, -⟩ := hf
  have calls : callsOf lane'.run.trace = callsOf lane.run.trace ++ lane'.run.dueCalls := by
    rw [trace, callsOf_append, due]
  refine ⟨by rw [calls, List.length_append, made], ?_, next⟩
  intro n call hn
  rw [calls] at hn
  -- a call made before stays its own, and a new one is the call that is demanded next
  rcases Nat.lt_or_ge n (callsOf lane.run.trace).length with old | new
  · rw [List.getElem?_append_left old] at hn
    exact (h.calls n call hn).keep hp ha
  · rw [List.getElem?_append_right new] at hn
    cases demand : lane'.run.demand with
    | call =>
      simp only [Run.dueCalls, demand] at hn
      obtain ⟨hlt, heq⟩ := List.getElem?_eq_some_iff.1 hn
      simp only [List.length_singleton] at hlt
      rw [List.getElem_singleton] at heq
      rw [← heq, show n = lane'.answers.length by omega]
      exact next (by simp [Run.isSuspended, demand])
    | wait ms => simp [Run.dueCalls, demand] at hn
    | nothing => simp [Run.dueCalls, demand] at hn
    | crashed fault => simp [Run.dueCalls, demand] at hn

theorem Next.ownCalls (step : lane.Next lane') (h : lane.OwnCalls) : lane'.OwnCalls := by
  cases step with
  | unchanged => exact h
  | aborted reason =>
    have keep {n : Nat} {call : Target × Request} (own : lane.OwnCall n call) :
        OwnCall { lane with abort := some (lane.moment, reason) } n call :=
      own.keep rfl (List.prefix_refl _)
    exact ⟨h.made, fun n call hn => keep (h.calls n call hn), fun suspended => keep (h.next suspended)⟩
  | @answered a result demand gives =>
    obtain ⟨context, -, own⟩ := h.next (by simp [Run.isSuspended, demand])
    obtain ⟨target, request⟩ := Prod.mk.inj own
    refine h.follow rfl (List.prefix_append _ _) (Run.follows_resumeCall _ _) ?_ ?_
    · simp [h.made, Run.dueCalls, demand]
    · intro suspended
      obtain ⟨response, rfl, -, given⟩ := Run.suspended_resumeCall suspended
      rw [Session.answer_of_gives gives]
      refine ⟨Envelope.contextOf response, ?_, ?_⟩
      · rw [List.length_append]
        apply OwnContext.later
        simp
      · rw [(Run.follows_resumeCall _ _).target, given, target, request]
        rfl
  | @woken ms demand =>
    refine h.follow rfl (List.prefix_refl _) (Run.follows_resumeWait _ _) ?_ ?_
    · simp [h.made, Run.dueCalls, demand]
    · intro _
      rw [(Run.follows_resumeWait _ _).target, Run.request_resumeWait]
      exact (h.next (by simp [Run.isSuspended, demand])).keep rfl (List.prefix_refl _)

theorem ownCalls_start (plan : Plan) (budget : Budget) (signal : Signal) :
    (Lane.start plan budget signal).OwnCalls := by
  -- before its first step a run has made no call
  have idle : OwnCalls ⟨plan, budget, ⟨plan.target, .initial plan.request budget, .nothing, []⟩,
      [], 0, signal.map (.start, ·)⟩ := by
    refine ⟨rfl, ?_, nofun⟩
    intro n call hn
    cases hn
  refine idle.follow rfl (List.prefix_refl _) (Run.follows_callNext signal) rfl ?_
  intro _
  refine ⟨plan.request.callbackContext, .first, ?_⟩
  rw [show (Lane.start plan budget signal).run = _ from Run.start_eq plan budget signal,
    (Run.follows_callNext signal).target, Run.request_callNext]
  rfl

theorem Reached.ownCalls (h : Reached plan budget signal lane) : lane.OwnCalls := by
  induction h with
  | start => exact ownCalls_start plan budget signal
  | next _ step ih => exact step.ownCalls ih

/-! ### It is a run performed alone -/

def Awaits (lane : Lane) : AbortPoint → Prop
  | .start => False
  | .call n => lane.answers.length < n
  | .wait n => lane.woken < n
  | .never => True

/-- A script whose answers begin with those that a run has got, and whose signal is aborted when that
    of the run was; if it was not, then not before anything that is still to come. -/
structure Fits (lane : Lane) (script : Script) : Prop where
  answers : ∀ n a, lane.answers[n]? = some a → script.answer n = a
  aborted : ∀ planned, lane.abort = some planned → script.abort = some planned
  unaborted : lane.abort = none → ∀ point reason, script.abort = some (point, reason) → lane.Awaits point

/-- The answers and the abort of a run as a script. -/
def ownScript (lane : Lane) : Script := ⟨lane.answers, lane.abort⟩

theorem fits_ownScript (lane : Lane) : lane.Fits lane.ownScript := by
  refine ⟨?_, fun _ h => h, ?_⟩
  · intro n a h
    simp [Script.answer, ownScript, h]
  · intro unaborted point reason h
    simp [ownScript, unaborted] at h

theorem awaits_moment (lane : Lane) : lane.Awaits lane.moment := by
  unfold moment
  cases lane.run.demand with
  | call => exact Nat.lt_succ_self _
  | wait ms => exact Nat.lt_succ_self _
  | nothing => trivial
  | crashed fault => trivial

theorem Next.fits (step : lane.Next lane') (h : lane'.Fits script) : lane.Fits script := by
  cases step with
  | unchanged => exact h
  | aborted reason unaborted =>
    refine ⟨h.answers, ?_, ?_⟩
    · intro planned h'
      rw [unaborted] at h'
      cases h'
    · intro _ point why moment
      rw [h.aborted _ rfl] at moment
      cases moment
      -- before the abort its moment was still to come
      exact lane.awaits_moment
  | answered =>
    refine ⟨?_, h.aborted, ?_⟩
    · intro n a hn
      obtain ⟨hlt, -⟩ := List.getElem?_eq_some_iff.1 hn
      apply h.answers n a
      rw [List.getElem?_append_left hlt]
      exact hn
    · intro unaborted point reason moment
      have awaits := h.unaborted unaborted point reason moment
      cases point with
      | call n => simp only [Awaits, List.length_append, List.length_singleton] at awaits ⊢; omega
      | _ => exact awaits
  | woken =>
    refine ⟨h.answers, h.aborted, ?_⟩
    intro unaborted point reason moment
    have awaits := h.unaborted unaborted point reason moment
    cases point with
    | wait n => simp only [Awaits] at awaits ⊢; omega
    | _ => exact awaits

/-- A run among others and the session that serves the same run alone. The session learns of an abort
    when it serves what was under way at that moment. -/
structure Alone (lane : Lane) (script : Script) (s : Session) : Prop where
  played : play script (lane.answers.length + lane.woken) (.begin script)
    (.start lane.plan lane.budget (Session.begin script).signal) = (s, lane.run)
  calls : s.calls.length = lane.answers.length
  waits : s.waits.length = lane.woken
  unaborted : lane.abort = none → s.signal = none
  aborted : lane.abort ≠ none → lane.run.isSuspended = true →
    script.signalAfter lane.moment s.signal = lane.signal

/-- When the session serves what is under way, it learns of the same aborts as the run. -/
theorem Alone.signalAfter (h : lane.Alone script s) (suspended : lane.run.isSuspended = true)
    (past : lane.abort = none → ∀ reason, script.abort ≠ some (lane.moment, reason)) :
    script.signalAfter lane.moment s.signal = lane.signal := by
  cases abort : lane.abort with
  | none =>
    rw [h.unaborted abort, signalAfter_past (past abort)]
    simp [signal, abort]
  | some planned => exact h.aborted (by simp [abort]) suspended

theorem signalAfter_signal (lane : Lane) (aborted : lane.abort ≠ none) (point : AbortPoint) :
    script.signalAfter point lane.signal = lane.signal := by
  obtain ⟨planned, abort⟩ := Option.ne_none_iff_exists'.1 aborted
  simp [signal, abort, signalAfter_some]

theorem alone_start (fits : (Lane.start plan budget signal).Fits script) :
    (Lane.start plan budget signal).Alone script (.begin script) := by
  have begins : (Session.begin script).signal = signal := by
    cases signal with
    | some reason => exact signalAfter_iff.2 (fits.aborted _ rfl)
    | none =>
      apply signalAfter_past
      intro reason moment
      exact fits.unaborted rfl _ _ moment
  refine ⟨?_, rfl, rfl, ?_, ?_⟩
  · rw [begins]
    rfl
  · intro unaborted
    rw [begins]
    simpa [start] using unaborted
  · intro aborted _
    rw [begins]
    cases signal with
    | some reason => exact signalAfter_some _
    | none => exact absurd rfl aborted

theorem Next.alone (step : lane.Next lane') (fits : lane'.Fits script) (h : lane.Alone script s) :
    ∃ s', lane'.Alone script s' := by
  cases step with
  | unchanged => exact ⟨s, h⟩
  | aborted reason unaborted =>
    refine ⟨s, h.played, h.calls, h.waits, nofun, ?_⟩
    intro _ _
    rw [h.unaborted unaborted]
    exact signalAfter_iff.2 (fits.aborted _ rfl)
  -- the session serves next what is under way here, and the answer is the one that the script gives
  | @answered a result demand gives =>
    have moment : lane.moment = .call (s.calls.length + 1) := by rw [h.calls, Lane.moment, demand]
    have signal := h.signalAfter (by simp [Run.isSuspended, demand]) (by
      intro unaborted reason planned
      have awaits := fits.unaborted unaborted _ _ planned
      simp [moment, Awaits, h.calls] at awaits)
    rw [moment] at signal
    have given : script.answer s.calls.length = a := fits.answers _ _ (by simp [h.calls])
    refine ⟨⟨s.calls ++ [(lane.run.target, lane.run.state.request)], s.waits, lane.signal⟩,
      ?_, ?_, h.waits, ?_, ?_⟩
    · rw [List.length_append, List.length_singleton, Nat.add_right_comm]
      exact Session.play_succ h.played (Session.serve_answered demand signal (given ▸ gives))
    · simp [h.calls]
    · intro unaborted
      simpa [Lane.signal] using unaborted
    · intro aborted _
      exact signalAfter_signal lane aborted _
  | @woken ms demand =>
    have moment : lane.moment = .wait (s.waits.length + 1) := by rw [h.waits, Lane.moment, demand]
    have signal := h.signalAfter (by simp [Run.isSuspended, demand]) (by
      intro unaborted reason planned
      have awaits := fits.unaborted unaborted _ _ planned
      simp [moment, Awaits, h.waits] at awaits)
    rw [moment] at signal
    refine ⟨⟨s.calls, s.waits ++ [ms], lane.signal⟩, ?_, h.calls, ?_, ?_, ?_⟩
    · rw [← Nat.add_assoc]
      exact Session.play_succ h.played (Session.serve_woken demand signal)
    · simp [h.waits]
    · intro unaborted
      simpa [Lane.signal] using unaborted
    · intro aborted _
      exact signalAfter_signal lane aborted _

theorem Reached.alone (h : Reached plan budget signal lane) (fits : lane.Fits script) :
    ∃ s, lane.Alone script s := by
  induction h with
  | start => exact ⟨_, alone_start fits⟩
  | next _ step ih =>
    obtain ⟨s, alone⟩ := ih (step.fits fits)
    exact step.alone fits alone

theorem Alone.unserved (h : lane.run.isSuspended = false) : serve script s lane.run = none := by
  cases demand : lane.run.demand with
  | call => simp [Run.isSuspended, demand] at h
  | wait ms => simp [Run.isSuspended, demand] at h
  | nothing => exact Session.serve_over demand
  | crashed fault => simp [serve, demand]

/-- A run on a shared loop that nothing but its own events has touched. The shared collaborators have
    seen its trace, its calls are its own, and against every script that fits it, such as `ownScript`, the
    same run performed alone has come just as far, and to the same end. -/
structure Undisturbed (plan : Plan) (budget : Budget) (signal : Signal) (seen : List Happening)
    (lane : Lane) : Prop where
  begun : lane.Begun plan budget signal
  trace : seen = lane.run.trace
  calls : ∀ n call, (callsOf seen)[n]? = some call → lane.OwnCall n call
  alone : ∀ script, lane.Fits script → ∃ s,
    play script (lane.answers.length + lane.woken) (.begin script)
        (.start plan budget (Session.begin script).signal) = (s, lane.run) ∧
      callsOf seen = s.calls ++ lane.run.dueCalls ∧ waitsOf seen = s.waits ++ lane.run.dueWaits ∧
      (lane.run.isSuspended = false → perform script (.begin script) plan budget = (s, lane.run))

theorem Reached.undisturbed (h : Reached plan budget signal lane) :
    lane.Undisturbed plan budget signal lane.run.trace := by
  have begun := h.begun
  refine ⟨begun, rfl, h.ownCalls.calls, ?_⟩
  intro script fits
  obtain ⟨s, alone⟩ := h.alone fits
  have played := alone.played
  rw [begun.plan, begun.budget] at played
  obtain ⟨calls, waits⟩ := Session.play_seen script plan budget (.begin script)
    (lane.answers.length + lane.woken)
  rw [played] at calls waits
  refine ⟨s, played, calls, waits, ?_⟩
  intro ended
  rw [Session.perform_idle (by rw [played]; exact Alone.unserved ended), played]

end Lane

/-! ## All runs of a loop -/

namespace Loop

variable {loop : Loop} {starts : List (Plan × Budget × Signal)}

/-- A loop keeps its runs apart: each is what its own events have made of it, and what the shared
    collaborators have seen of it is its trace. They have seen nothing else. -/
structure Kept (starts : List (Plan × Budget × Signal)) (loop : Loop) : Prop where
  count : loop.lanes.length = starts.length
  lane : ∀ index plan budget signal, starts[index]? = some (plan, budget, signal) →
    ∃ lane, loop.lanes[index]? = some lane ∧ Lane.Reached plan budget signal lane ∧
      loop.seenOf index = lane.run.trace
  known : ∀ act ∈ loop.record, act.1 < loop.lanes.length

theorem seenOf_append (lanes lanes' : List Lane) (record : List (Nat × Happening)) (more : List Happening)
    (index other : Nat) :
    seenOf ⟨lanes', record ++ more.map (index, ·)⟩ other =
      seenOf ⟨lanes, record⟩ other ++ if index = other then more else [] := by
  simp only [seenOf, List.filterMap_append, List.filterMap_map]
  congr 1
  split <;> simp [*]

theorem Kept.start (h : loop.Kept starts) (plan : Plan) (budget : Budget) (signal : Signal) :
    (loop.start (.start plan budget signal)).Kept (starts ++ [(plan, budget, signal)]) := by
  refine ⟨by simp [Loop.start, h.count], ?_, ?_⟩
  · intro index plan' budget' signal' hi
    rcases Nat.lt_or_ge index starts.length with old | new
    · rw [List.getElem?_append_left old] at hi
      obtain ⟨lane, found, reached, seen⟩ := h.lane index plan' budget' signal' hi
      refine ⟨lane, ?_, reached, ?_⟩
      · rw [Loop.start, List.getElem?_append_left (by rw [h.count]; exact old)]
        exact found
      · rw [Loop.start, seenOf_append loop.lanes, if_neg (by rw [h.count]; omega), List.append_nil]
        exact seen
    · rw [List.getElem?_append_right new] at hi
      obtain ⟨hlt, heq⟩ := List.getElem?_eq_some_iff.1 hi
      simp only [List.length_singleton] at hlt
      rw [List.getElem_singleton] at heq
      cases heq
      obtain rfl : index = loop.lanes.length := by rw [h.count]; omega
      refine ⟨.start plan budget signal, by simp [Loop.start], .start, ?_⟩
      -- nobody has seen anything of a run before its start
      have unseen : loop.seenOf loop.lanes.length = [] := by
        apply List.filterMap_eq_nil_iff.2
        intro act hact
        rw [if_neg (Nat.ne_of_lt (h.known act hact))]
      rw [Loop.start, seenOf_append loop.lanes, if_pos rfl, ← List.nil_append (Lane.run _).trace]
      exact congrArg (· ++ _) unseen
  · intro act hact
    simp only [Loop.start, List.length_append, List.length_singleton]
    rcases List.mem_append.1 hact with old | new
    · exact Nat.lt_succ_of_lt (h.known act old)
    · obtain ⟨_, -, rfl⟩ := List.mem_map.1 new
      exact Nat.lt_succ_self _

theorem Kept.move (h : loop.Kept starts) (index : Nat) (event : LaneEvent) :
    (loop.move index event).Kept starts := by
  unfold Loop.move
  cases found : loop.lanes[index]? with
  | none => exact h
  | some moved =>
    refine ⟨by simp [h.count], ?_, ?_⟩
    · intro other plan budget signal hi
      obtain ⟨lane, found', reached, seen⟩ := h.lane other plan budget signal hi
      by_cases same : index = other
      · subst same
        rw [found] at found'
        cases found'
        -- the record gains just what the run adds to its trace
        have step := moved.next_step event
        obtain ⟨more, trace⟩ := step.trace
        obtain ⟨hlt, -⟩ := List.getElem?_eq_some_iff.1 found
        refine ⟨moved.step event, by simp [hlt], reached.next step, ?_⟩
        rw [seenOf_append loop.lanes, if_pos rfl, trace, List.drop_left]
        exact congrArg (· ++ more) seen
      · refine ⟨lane, ?_, reached, ?_⟩
        · rw [List.getElem?_set_ne same]
          exact found'
        · rw [seenOf_append loop.lanes, if_neg same, List.append_nil]
          exact seen
    · intro act hact
      rw [List.length_set]
      rcases List.mem_append.1 hact with old | new
      · exact h.known act old
      · obtain ⟨_, -, rfl⟩ := List.mem_map.1 new
        obtain ⟨hlt, -⟩ := List.getElem?_eq_some_iff.1 found
        exact hlt

theorem Kept.after (h : loop.Kept starts) (history : List LoopEvent) :
    (history.foldl step loop).Kept (starts ++ startsOf history) := by
  induction history generalizing loop starts with
  | nil => simpa [startsOf] using h
  | cons event rest ih =>
    cases event with
    | started plan budget signal =>
      have later := ih (h.start plan budget signal)
      rw [List.append_assoc] at later
      exact later
    | happened index event => exact ih (h.move index event)

theorem kept_idle : Loop.idle.Kept [] := by
  refine ⟨rfl, ?_, ?_⟩
  · intro index plan budget signal h
    cases h
  · intro act h
    cases h

/-- **Runs on one loop do not interfere**, however their calls, answers, waits and aborts are mixed. Each
    of them calls the handler with its own target, request, token and context only, and makes the
    calls and the waits, and comes to the end, of the run performed alone whose calls get the same
    answers and whose signal is aborted at the same moment. -/
theorem runs_independent (history : List LoopEvent) :
    (∀ act ∈ (after history).record, act.1 < (startsOf history).length) ∧
      ∀ (index : Nat) (plan : Plan) (budget : Budget) (signal : Signal),
        (startsOf history)[index]? = some (plan, budget, signal) →
        ∃ lane : Lane, (after history).lanes[index]? = some lane ∧
          lane.Undisturbed plan budget signal ((after history).seenOf index) := by
  have kept := kept_idle.after history
  rw [List.nil_append] at kept
  constructor
  · intro act h
    rw [← kept.count]
    exact kept.known act h
  · intro index plan budget signal h
    obtain ⟨lane, found, reached, seen⟩ := kept.lane index plan budget signal h
    refine ⟨lane, found, ?_⟩
    rw [after, seen]
    exact reached.undisturbed

/-- Two runs whose calls and waits are mixed, the first of them aborted during its second call. -/
theorem mixed_runs_independent :
    let target : Target := ⟨"http://localhost", "handler"⟩
    let first : Plan := ⟨target, ⟨.create, .object [], .object [], "token-1"⟩⟩
    let second : Plan := ⟨target, ⟨.delete, .object [], .object [], "token-2"⟩⟩
    let later (step : Text) : Answer := .respond (.object [("status", .text "IN_PROGRESS"),
      ("callbackContext", .object [("step", .text step)]), ("callbackDelaySeconds", .number (.ofNat 2))])
    let history : List LoopEvent := [.started first .unbounded none, .happened 0 (.answered (later "a")),
      .started second (.bounded (.ofNat 1)) none, .happened 1 (.answered (later "b")),
      .happened 1 .woken, .happened 0 .woken, .happened 0 (.aborted (.text "stop")),
      .happened 1 (.answered (.respond (.object [("status", .text "SUCCESS")]))),
      .happened 0 (.answered (later "c")), .happened 0 .woken]
    ((callsOf ((after history).record.map (·.2))).map fun call => call.2.bearerToken) =
        [("token-1" : Text), "token-2", "token-2", "token-1"] ∧
      (after history).lanes.map (·.run.isSuspended) = [false, false] ∧
      (∃ lane s, (after history).lanes[0]? = some lane ∧
        lane.Undisturbed first .unbounded none ((after history).seenOf 0) ∧
        perform lane.ownScript (.begin lane.ownScript) first .unbounded = (s, lane.run)) ∧
      ∃ lane : Lane, (after history).lanes[1]? = some lane ∧
        lane.Undisturbed second (.bounded (.ofNat 1)) none ((after history).seenOf 1) := by
  intro target first second later history
  obtain ⟨-, independent⟩ := runs_independent history
  have ended : (after history).lanes.map (·.run.isSuspended) = [false, false] := by decide +kernel
  refine ⟨by decide +kernel, ended, ?_, independent 1 second (.bounded (.ofNat 1)) none rfl⟩
  obtain ⟨lane, found, undisturbed⟩ := independent 0 first .unbounded none rfl
  have idle : lane.run.isSuspended = false := by
    have h := congrArg (·[0]?) ended
    simpa [found] using h
  obtain ⟨s, -, -, -, performed⟩ := undisturbed.alone lane.ownScript lane.fits_ownScript
  exact ⟨lane, s, found, undisturbed, performed idle⟩

end Loop
end Lifecycle
