import Lifecycle.Proofs.Run.Accounting
import Lifecycle.Proofs.Run.Cancellation
import Lifecycle.Proofs.Run.Tracked

/- How long a run lasts.

   A script repeats its last answer for good, so a run that goes on long enough repeats
   itself: it is in progress with the same response again and again, under a budget that
   allows every call, and with no abort to come (`Perpetual`). Every run that is ever over
   is therefore over within the demands that a performance serves (`perform_settles`). -/
namespace Lifecycle

open Envelope (progressOf)

/-- A budget that allows a call past the number it reserves allows every call. -/
theorem Budget.allows_always {b : Budget} {n : Nat} (hn : b.calls + 2 ≤ n)
    (ha : b.allows (.tally n) = true) (n' : Nat) : b.allows (.tally n') = true := by
  obtain ⟨m, rfl⟩ : ∃ m, n = m + 1 := ⟨n - 1, by omega⟩
  cases n' with
  | zero =>
    cases b with
    | unbounded => rfl
    | bounded x => rw [Double.tally_zero, allows, show Double.zero.le .one = true by decide +kernel, Bool.true_or]
  | succ m' =>
    cases b with
    | unbounded => rfl
    | bounded x =>
      obtain ⟨v, hv, hlt, hcase⟩ := Double.toInt?_tally_sub_one m
      obtain ⟨v', hv', hlt', -⟩ := Double.toInt?_tally_sub_one m'
      have first := (Double.tally_compares Double.toInt?_one (by decide) (m + 1)).2
      rw [allows, first, decide_eq_false (by omega), Bool.false_or] at ha
      rw [allows, Bool.or_eq_true]
      right
      obtain rfl | ⟨s, hs, hle⟩ := Double.le_cases ha hv
      · exact Double.le_infinite hv'
      · -- the number of calls is the whole part of the bound, and one more: no count below 2^53 is past it
        simp only [calls, hs] at hn
        have hpos : (0 : Int) < Double.stepsPerOne := by exact_mod_cast Double.stepsPerOne_pos
        have hpast := (Int.le_ediv_iff_mul_le hpos).2 hle
        exact Double.le_smaller ha hv' hv (by omega)

/-- After a response that asks for a delay the next call is not made at once. -/
theorem Run.resumeCall_delayed {r : Run} {signal : Signal} {result : CallResult} {response : Value}
    (hc : result.Continues response)
    (positive : Double.zero.lt (progressOf response).delaySeconds = true) :
    (r.resumeCall result signal).demand ≠ .call := by
  obtain ⟨t, hs, he, -, -, resumed⟩ := r.resumeCall_continues hc
  rw [resumed]
  cases ha : t.state.budget.allows (t.state.invocationCount.add .one) with
  | true =>
    rw [Run.proceed_pausing hs positive ha]
    nofun
  | false =>
    rw [Run.proceed_onward hs (.inr ha)]
    cases signal with
    | some reason => nofun
    | none =>
      rw [Run.callNext_suppressed (.inr ⟨_, hs⟩) ha he]
      nofun

namespace Session

variable {script : Script} {plan : Plan} {budget : Budget} {origin s s' : Session} {r r' : Run}
  {response : Value}

/-! ## Runs that repeat themselves -/

/-- A run that goes on for good, with the same response in progress to every call. -/
structure Perpetual (script : Script) (response : Value) (s : Session) (r : Run) : Prop where
  answers : ∀ n, s.calls.length ≤ n → script.answer n = .respond response
  accepted : Envelope.check response = .ok ⟨.inProgress (progressOf response), []⟩
  counted : ∃ made, r.state.invocationCount = .tally made
  allowed : ∀ n, r.state.budget.allows (.tally n) = true
  unaborted : s.signal = none
  callsPast : ∀ n reason, script.abort = some (.call n, reason) → n ≤ s.calls.length
  waitsPast : Double.zero.lt (progressOf response).delaySeconds = true →
    ∀ n reason, script.abort = some (.wait n, reason) → n ≤ s.waits.length
  demand : r.demand = .call ∨ (∃ ms, r.demand = .wait ms) ∧ r.state.IsReady ∧
    Double.zero.lt (progressOf response).delaySeconds = true

theorem signalAfter_past {point : AbortPoint}
    (h : ∀ reason, script.abort ≠ some (point, reason)) : script.signalAfter point none = none := by
  cases hs : script.signalAfter point none with
  | none => rfl
  | some reason => exact absurd (signalAfter_iff.1 hs) (h reason)

theorem Perpetual.serve (h : Perpetual script response s r) :
    ∃ s' r', serve script s r = some (s', r') ∧ Perpetual script response s' r' := by
  obtain ⟨answers, accepted, ⟨made, count⟩, allowed, unaborted, callsPast, waitsPast, demand⟩ := h
  have next : r.state.invocationCount.add .one = .tally (made + 1) := by rw [count, Double.tally_succ]
  have further : r.state.budget.allows (r.state.invocationCount.add .one) = true := by
    rw [next]
    exact allowed _
  obtain demand | ⟨⟨ms, demand⟩, ready, positive⟩ := demand
  · have signal : script.signalAfter (.call (s.calls.length + 1)) none = none := by
      apply signalAfter_past
      intro reason moment
      have := callsPast _ _ moment
      omega
    refine ⟨⟨s.calls ++ [(r.target, r.state.request)], s.waits, none⟩,
      r.resumeCall (.responded response) none, ?_, ?_⟩
    · simp only [Session.serve, demand, unaborted, signal, answers _ (Nat.le_refl _)]
    · have longer : s.calls.length ≤ (s.calls ++ [(r.target, r.state.request)]).length := by simp
      have allowed' : ∀ n, (r.resumeCall (.responded response) none).state.budget.allows (.tally n) = true := by
        rw [(Run.follows_resumeCall (.responded response) none).budget]
        exact allowed
      have answers' : ∀ n, (s.calls ++ [(r.target, r.state.request)]).length ≤ n →
          script.answer n = .respond response := fun n hn => answers n (Nat.le_trans longer hn)
      have callsPast' : ∀ n reason, script.abort = some (.call n, reason) →
          n ≤ (s.calls ++ [(r.target, r.state.request)]).length :=
        fun n reason moment => Nat.le_trans (callsPast n reason moment) longer
      obtain ⟨calling, count'⟩ | ⟨waiting, ready, count', positive⟩ := Run.resumeCall_onward accepted further
      · exact ⟨answers', accepted, ⟨made + 1, count'.trans next⟩, allowed', rfl, callsPast', waitsPast,
          .inl calling⟩
      · exact ⟨answers', accepted, ⟨made, count'.trans count⟩, allowed', rfl, callsPast', waitsPast,
          .inr ⟨waiting, ready, positive⟩⟩
  · have signal : script.signalAfter (.wait (s.waits.length + 1)) none = none := by
      apply signalAfter_past
      intro reason moment
      have := waitsPast positive _ _ moment
      omega
    refine ⟨⟨s.calls, s.waits ++ [ms], none⟩, r.resumeWait none none, ?_, ?_⟩
    · simp only [Session.serve, demand, unaborted, signal]
      rfl
    · have longer : s.waits.length ≤ (s.waits ++ [ms]).length := by simp
      have calling : r.resumeWait none none = r.calling := Run.callNext_allowed ready further
      rw [calling]
      exact ⟨answers, accepted, ⟨made + 1, next⟩, allowed, rfl, callsPast,
        fun positive n reason moment => Nat.le_trans (waitsPast positive n reason moment) longer, .inl rfl⟩

theorem Perpetual.never_idle (h : Perpetual script response s r) (fuel : Nat) :
    Session.serve script (play script fuel s r).1 (play script fuel s r).2 ≠ none := by
  induction fuel generalizing s r with
  | zero =>
    obtain ⟨s', r', hs, -⟩ := h.serve
    show Session.serve script s r ≠ none
    simp [hs]
  | succ fuel ih =>
    obtain ⟨s', r', hs, h'⟩ := h.serve
    rw [play_next hs]
    exact ih h'

/-! ## The pace of a run -/

/-- How many waits go with the calls of a run that is under way: at most one with each, and one with
    each that gets the last answer of the script, if that asks for a delay. An abort that a wait
    still has to notice came during the call before it. -/
inductive Paced (script : Script) (origin s : Session) (r : Run) : Prop where
  | calling (demand : r.demand = .call)
      (waits : s.waits.length + origin.calls.length ≤ s.calls.length + origin.waits.length)
      (steady : ∀ response, script.answer script.answers.length = .respond response →
        Double.zero.lt (progressOf response).delaySeconds = true →
          s.calls.length + origin.waits.length ≤
            script.answers.length + s.waits.length + origin.calls.length)
  | waiting {ms : Double} (demand : r.demand = .wait ms)
      (waits : s.waits.length + 1 + origin.calls.length ≤ s.calls.length + origin.waits.length)
      (steady : ∀ response, script.answer script.answers.length = .respond response →
        Double.zero.lt (progressOf response).delaySeconds = true →
          s.calls.length + origin.waits.length ≤
            script.answers.length + s.waits.length + 1 + origin.calls.length)
      (late : ∀ reason, s.signal = some reason → script.abort = some (.call s.calls.length, reason))
  | idle (unserved : serve script s r = none)

theorem paced_start (script : Script) (plan : Plan) (budget : Budget) (origin : Session) :
    Paced script origin origin (.start plan budget origin.signal) := by
  have poised := Poised.start plan budget origin.signal
  cases poised with
  | calling demand => exact .calling demand (by omega) (fun _ _ _ => by omega)
  | waiting _ _ _ _ _ _ answered => cases answered
  | ended demand => exact .idle (serve_over demand)
  | crashed _ thrown => cases thrown

theorem answer_past {n : Nat} (h : script.answers.length ≤ n) :
    script.answer n = script.answer script.answers.length := by
  simp [Script.answer, h]

theorem answer_of_gives {a : Answer} {signal : Signal} (h : a.Gives signal (.responded response)) :
    a = .respond response := by
  cases h
  rfl

theorem Paced.of_call (h : Paced script origin s r) (hs : serve script s r = some (s', r'))
    (hd : r.demand = .call) :
    s.waits.length + origin.calls.length ≤ s.calls.length + origin.waits.length ∧
      ∀ response, script.answer script.answers.length = .respond response →
        Double.zero.lt (progressOf response).delaySeconds = true →
          s.calls.length + origin.waits.length ≤
            script.answers.length + s.waits.length + origin.calls.length := by
  cases h with
  | calling _ waits steady => exact ⟨waits, steady⟩
  | _ => simp_all

theorem Paced.of_wait {ms : Double} (h : Paced script origin s r)
    (hs : serve script s r = some (s', r')) (hd : r.demand = .wait ms) :
    s.waits.length + 1 + origin.calls.length ≤ s.calls.length + origin.waits.length ∧
      ∀ response, script.answer script.answers.length = .respond response →
        Double.zero.lt (progressOf response).delaySeconds = true →
          s.calls.length + origin.waits.length ≤
            script.answers.length + s.waits.length + 1 + origin.calls.length := by
  cases h with
  | waiting _ waits steady => exact ⟨waits, steady⟩
  | _ => simp_all

theorem Paced.serve (hsince : Since script origin s) (ht : Tracked script origin plan budget s r)
    (h : Paced script origin s r) (hs : serve script s r = some (s', r')) :
    Paced script origin s' r' := by
  have hmore := hsince.waits
  have hserved := served_of_serve hs
  obtain ⟨last', hlast', hpoised'⟩ := (hserved.tracked ht).poised
  cases hserved with
  | @call signal result demand left gives =>
    obtain ⟨waits, steady⟩ := h.of_call hs demand
    obtain ⟨last, -, hpoised⟩ := ht.poised
    obtain ⟨unaborted, -⟩ := hpoised.of_call demand
    rw [unaborted] at left
    have made : (s.calls ++ [(r.target, r.state.request)]).length = s.calls.length + 1 := by simp
    cases hpoised' with
    | calling demand' =>
      refine .calling demand' (by simp only [made]; omega) ?_
      intro response ha positive
      have := steady response ha positive
      simp only [made]
      by_cases hpast : s.calls.length + origin.waits.length <
          script.answers.length + s.waits.length + origin.calls.length
      · omega
      -- past its end the script answers with the delay, so a wait comes first and not a call
      · obtain ⟨response', rfl, accepted, -⟩ := Run.suspended_resumeCall
          (show (r.resumeCall result signal).isSuspended = true by simp [Run.isSuspended, demand'])
        have hlast := answer_of_gives gives
        rw [answer_past (by omega), ha] at hlast
        cases hlast
        exact absurd demand' (Run.resumeCall_delayed ⟨rfl, accepted⟩ positive)
    | waiting demand' =>
      refine .waiting demand' (by simp only [made]; omega) ?_ ?_
      · intro response ha positive
        have := steady response ha positive
        simp only [made]
        omega
      · intro reason aborted
        simp only [made]
        exact signalAfter_iff.1 (left.trans aborted)
    | ended demand' => exact .idle (serve_over demand')
    | crashed demand' => exact .idle (by simp [Session.serve, demand'])
  | @wait signal ms demand left =>
    obtain ⟨waits, steady⟩ := h.of_wait hs demand
    have waited : (s.waits ++ [ms]).length = s.waits.length + 1 := by simp
    cases hpoised' with
    | calling demand' =>
      refine .calling demand' (by simp only [waited]; omega) ?_
      intro response ha positive
      have := steady response ha positive
      simp only [waited]
      omega
    | waiting demand' =>
      cases signal with
      | none => exact absurd demand' (r.callNext_never_waits none _)
      | some reason => cases demand'
    | ended demand' => exact .idle (serve_over demand')
    | crashed demand' => exact .idle (by simp [Session.serve, demand'])

/-! ## A performance is long enough -/

theorem play_paced (script : Script) (plan : Plan) (budget : Budget) (origin : Session)
    (fuel : Nat) :
    Paced script origin (play script fuel origin (.start plan budget origin.signal)).1
      (play script fuel origin (.start plan budget origin.signal)).2 := by
  refine (Run.drive_induction (P := fun s r => Since script origin s ∧ Tracked script origin plan budget s r ∧
    Paced script origin s r) ?_ fuel ⟨since_origin script origin,
      tracked_start script plan budget origin, paced_start script plan budget origin⟩).2.2
  intro s r s' r' h hs
  obtain ⟨hsince, htracked, hpaced⟩ := h
  exact ⟨hsince.serve hs, (served_of_serve hs).tracked htracked, hpaced.serve hsince htracked hs⟩

/-- Every demand that is served is a call or a wait that the session has seen, until none is served
    any more. -/
theorem play_served (script : Script) (s : Session) (r : Run) (fuel : Nat) :
    serve script (play script fuel s r).1 (play script fuel s r).2 = none ∨
      (play script fuel s r).1.calls.length + (play script fuel s r).1.waits.length =
        s.calls.length + s.waits.length + fuel := by
  induction fuel generalizing s r with
  | zero => exact .inr rfl
  | succ fuel ih =>
    cases hs : serve script s r with
    | none =>
      rw [play_idle hs]
      exact .inl hs
    | some sr =>
      obtain ⟨s', r'⟩ := sr
      rw [play_next hs]
      refine (ih s' r').imp id ?_
      intro hcount
      rw [hcount]
      cases served_of_serve hs with
      | call => simp only [List.length_append, List.length_singleton]; omega
      | wait => simp only [List.length_append, List.length_singleton]; omega

/-- The number of calls or waits after which the planned abort is past. -/
def abortPast (script : Script) : Nat :=
  match script.abort with
  | some (.call n, _) => n
  | some (.wait n, _) => n
  | _ => 0

theorem abortPast_call {n : Nat} {reason : AbortReason} (h : script.abort = some (.call n, reason)) :
    abortPast script = n := by
  rw [abortPast, h]

theorem abortPast_wait {n : Nat} {reason : AbortReason} (h : script.abort = some (.wait n, reason)) :
    abortPast script = n := by
  rw [abortPast, h]

/-- A result that came past the end of a script is the one that is repeated. -/
theorem LastResult.repeated {result : CallResult} (h : LastResult script origin s (some result))
    (continues : result.Continues response) (past : script.answers.length < s.calls.length) :
    ∀ n, s.calls.length ≤ n → script.answer n = .respond response := by
  intro n hn
  obtain _ | ⟨-, gives, -⟩ := h
  rw [continues.responded] at gives
  rw [answer_past (by omega), ← answer_of_gives gives, answer_past (n := s.calls.length - 1) (by omega)]

/-- A run that is still under way after all the demands of a performance goes on for good. -/
theorem Tracked.perpetual (ht : Tracked script origin plan budget s r)
    (hp : Paced script origin s r) (hs : serve script s r ≠ none)
    (hcount : s.calls.length + s.waits.length =
      origin.calls.length + origin.waits.length + demands script budget) :
    ∃ response, Perpetual script response s r := by
  have hdemands : demands script budget =
      2 * (script.answers.length + budget.calls + abortPast script) + 4 := rfl
  obtain ⟨last, hlast, hpoised⟩ := ht.poised
  cases hp with
  | idle unserved => exact absurd unserved hs
  | calling demand waits steady =>
    obtain ⟨unaborted, count, allowed, continued⟩ := hpoised.of_call demand
    cases last with
    | none =>
      obtain ⟨calls⟩ := hlast
      omega
    | some result =>
      obtain ⟨response, continues⟩ := continued result rfl
      have answers := hlast.repeated continues (by omega)
      refine ⟨response, answers, continues.accepted, ⟨_, count⟩, ?_, unaborted, ?_, ?_, .inl demand⟩
      · rw [ht.budget] at allowed ⊢
        exact Budget.allows_always (by omega) allowed
      · intro n reason moment
        have := abortPast_call moment
        omega
      · intro positive n reason moment
        have := abortPast_wait moment
        have hlasting := (answer_past (by omega)).symm.trans (answers _ (Nat.le_refl _))
        have := steady response hlasting positive
        omega
  | waiting demand waits steady late =>
    obtain ⟨result, response, rfl, continues, count, ready, -, allowed, positive⟩ := hpoised.of_wait demand
    have answers := hlast.repeated continues (by omega)
    refine ⟨response, answers, continues.accepted, ⟨_, count⟩, ?_, ?_, ?_, ?_,
      .inr ⟨⟨_, demand⟩, ready, positive⟩⟩
    · rw [ht.budget] at allowed ⊢
      exact Budget.allows_always (by omega) allowed
    · cases hsignal : s.signal with
      | none => rfl
      | some reason =>
        have := abortPast_call (late reason hsignal)
        omega
    · intro n reason moment
      have := abortPast_call moment
      omega
    · intro _ n reason moment
      have := abortPast_wait moment
      have hlasting := (answer_past (by omega)).symm.trans (answers _ (Nat.le_refl _))
      have := steady response hlasting positive
      omega

/-- A run that ever has no demand left to serve has none when it has been performed, and the
    performance is that run. -/
theorem perform_idle {fuel : Nat}
    (h : serve script (play script fuel origin (.start plan budget origin.signal)).1
      (play script fuel origin (.start plan budget origin.signal)).2 = none) :
    perform script origin plan budget = play script fuel origin (.start plan budget origin.signal) := by
  rcases Nat.le_total fuel (demands script budget) with hle | hle
  · obtain ⟨more, hmore⟩ := Nat.exists_eq_add_of_le hle
    rw [perform, hmore, play_add, play_idle h]
  · obtain ⟨more, hmore⟩ := Nat.exists_eq_add_of_le hle
    rw [hmore, play_add] at h ⊢
    rw [perform]
    obtain hidle | hcount := play_served script origin (.start plan budget origin.signal)
      (demands script budget)
    · rw [play_idle hidle]
    · by_cases hidle : serve script (play script (demands script budget) origin
          (.start plan budget origin.signal)).1 (play script (demands script budget) origin
          (.start plan budget origin.signal)).2 = none
      · rw [play_idle hidle]
      · obtain ⟨response, perpetual⟩ := (play_tracked script plan budget origin _).perpetual
          (play_paced script plan budget origin _) hidle hcount
        exact absurd h (perpetual.never_idle more)

/-- **A run that is ever over is over when it has been performed**, and the performance is that run. -/
theorem perform_settles {fuel : Nat}
    (h : (play script fuel origin (.start plan budget origin.signal)).2.demand = .nothing) :
    perform script origin plan budget = play script fuel origin (.start plan budget origin.signal) :=
  perform_idle (serve_over h)

end Session
end Lifecycle
