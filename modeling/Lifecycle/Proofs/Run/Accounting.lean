import Lifecycle.Outcome
import Lifecycle.Proofs.Run.Played

/- What a run costs, and what it reports of it.

   Under a bound of `k` added calls that its count can pass a run makes at most `k + 1`
   calls and is over after finitely many demands, since every demand lowers the number
   that is left (`Served.demandsLeft_lt`). Every finished run, bounded or not, reports as
   many calls as the handler has seen, counted by ones, and says that its budget was used
   up exactly if all calls of the budget were answered in progress and no abort came
   before the next one. -/
namespace Lifecycle

/-- Whether an answer is a response or an error of the call. -/
def Answer.isPrompt : Answer → Bool
  | .respond _ => true
  | .fail _ => true
  | _ => false

theorem Run.callNext_never_waits (r : Run) (signal : Signal) (ms : Double) :
    (r.callNext signal).demand ≠ .wait ms := by
  unfold callNext
  split
  · nofun
  · split
    · nofun
    · simp only
      split <;> nofun

namespace Session

variable {script : Script} {plan : Plan} {budget : Budget} {limit : Option Nat} {k : Nat}
  {origin s s' : Session} {r r' : Run}

/-! ## A bounded run is soon over -/

theorem Underway.calls_length (h : Underway script origin plan budget limit s r) :
    origin.calls.length + (callsOf r.trace).length = s.calls.length + r.dueCalls.length := by
  simpa using congrArg List.length h.calls

/-- While a call or a wait is under way, no more calls were made than the budget adds. -/
theorem Underway.room (h : Underway script origin plan budget (some k) s r)
    (hd : r.demand = .call ∨ ∃ ms, r.demand = .wait ms) :
    s.calls.length ≤ origin.calls.length + k := by
  have hlen := h.calls_length
  obtain demand | ⟨ms, demand⟩ := hd
  · obtain ⟨n, -, course⟩ := h.phase.of_call demand
    have hmade := course.calls_length
    have hwithin := course.within k rfl
    rw [callsOf_actsOf] at hmade
    simp only [Run.dueCalls, demand, List.length_singleton] at hlen
    omega
  · obtain ⟨n, request, acts, response, -, -, -, course, -, within, -, trace⟩ := h.phase.of_wait demand
    have hmade := course.calls_length
    have hwithin := within k rfl
    rw [← callsOf_actsOf, trace, callsOf_append, callsOf_pauseOf, List.append_nil] at hlen
    simp only [Run.dueCalls, demand, List.length_nil] at hlen
    omega

/-- How many demands a run may still make when its budget adds `k` calls: a call and a wait for
    each call that is left, and the one under way. -/
def demandsLeft (k : Nat) (origin s : Session) (r : Run) : Nat :=
  match r.demand with
  | .call => 2 * (origin.calls.length + k - s.calls.length) + 1
  | .wait _ => 2 * (origin.calls.length + k + 1 - s.calls.length)
  | _ => 0

theorem Served.demandsLeft_lt (hb : budget.Enforces (some k))
    (h : Underway script origin plan budget (some k) s r) (hs : Served script s r s' r') :
    demandsLeft k origin s' r' < demandsLeft k origin s r := by
  have h' := hs.underway hb h
  have room := h.room
  have room' := h'.room
  cases hs with
  | @call signal result demand =>
    simp only [demandsLeft, demand]
    cases hd : (r.resumeCall result signal).demand with
    | call =>
      have := room' (.inl hd)
      simp only [List.length_append, List.length_singleton] at this ⊢
      omega
    | wait ms =>
      have := room' (.inr ⟨ms, hd⟩)
      simp only [List.length_append, List.length_singleton] at this ⊢
      omega
    | nothing => exact Nat.succ_pos _
    | crashed fault => exact Nat.succ_pos _
  | @wait signal ms demand =>
    have := room (.inr ⟨ms, demand⟩)
    simp only [demandsLeft, demand]
    cases hd : (r.resumeWait (signal.map .cancelledBy) signal).demand with
    | call =>
      simp only
      omega
    | wait ms' =>
      cases signal with
      | none => exact absurd hd (r.callNext_never_waits none ms')
      | some reason => cases hd
    | nothing => simp only; omega
    | crashed fault => simp only; omega

theorem idle_of_serve (hp : ∀ n, (script.answer n).isPrompt = true)
    (hs : serve script s r = none) : r.demand = .nothing ∨ ∃ fault, r.demand = .crashed fault := by
  unfold serve at hs
  cases hd : r.demand with
  | call =>
    have := hp s.calls.length
    simp only [hd] at hs
    cases ha : script.answer s.calls.length <;> simp_all [Answer.isPrompt]
  | wait ms => simp [hd] at hs
  | nothing => exact .inl rfl
  | crashed fault => exact .inr ⟨fault, rfl⟩

theorem Underway.over (h : Underway script origin plan budget limit s r)
    (hp : ∀ n, (script.answer n).isPrompt = true)
    (hd : r.demand = .nothing ∨ ∃ fault, r.demand = .crashed fault) : r.demand = .nothing := by
  obtain hd | ⟨fault, hd⟩ := hd
  · exact hd
  · cases h.phase with
    | @crashed n _ _ crash =>
      have := hp (origin.calls.length + n)
      rw [crash] at this
      cases this
    | _ => simp_all

theorem play_over (hb : budget.Enforces (some k)) (hp : ∀ n, (script.answer n).isPrompt = true)
    {fuel : Nat} (h : Underway script origin plan budget (some k) s r)
    (hf : demandsLeft k origin s r ≤ fuel) : (play script fuel s r).2.demand = .nothing := by
  induction fuel generalizing s r with
  | zero =>
    refine h.over hp ?_
    have room := h.room
    unfold demandsLeft at hf
    cases hd : r.demand with
    | call => simp only [hd] at hf; omega
    | wait ms =>
      have := room (.inr ⟨ms, hd⟩)
      simp only [hd] at hf
      omega
    | nothing => exact .inl rfl
    | crashed fault => exact .inr ⟨fault, rfl⟩
  -- every demand that is served leaves fewer of them than the fuel
  | succ fuel ih =>
    cases hs : serve script s r with
    | none =>
      rw [play_idle hs]
      exact h.over hp (idle_of_serve hp hs)
    | some sr =>
      have hserved := served_of_serve hs
      have := hserved.demandsLeft_lt hb h
      rw [play_next hs]
      exact ih (hserved.underway hb h) (by omega)

/-- A run that is over has made at most the first call and those that its budget adds. -/
theorem Underway.calls_le (h : Underway script origin plan budget (some k) s r)
    (hd : r.demand = .nothing) : s.calls.length ≤ origin.calls.length + k + 1 := by
  have hlen := h.calls_length
  simp only [Run.dueCalls, hd, List.length_nil] at hlen
  obtain ⟨n, request, -, course, -⟩ | ⟨reason, -, -, -, within⟩ := h.phase.of_nothing hd
  · have hmade := course.calls_length
    have hwithin := course.within k rfl
    rw [callsOf_actsOf] at hmade
    omega
  · have := within k rfl
    omega

/-- The fuel of a performance is enough for every demand that a bounded run can make. -/
theorem perform_over (plan : Plan) (origin : Session) (hb : budget.Adds (some k)) (hk : k + 1 < 2 ^ 53)
    (hp : ∀ n, (script.answer n).isPrompt = true) :
    (perform script origin plan budget).2.demand = .nothing := by
  have enforces : budget.Enforces (some k) := by
    rw [← Budget.enforced_of_lt hk]
    exact hb.enforces
  refine play_over enforces hp (underway_start script plan origin budget (some k)) ?_
  have : demandsLeft k origin origin (.start plan budget origin.signal) ≤ 2 * (k + 1) + 1 := by
    unfold demandsLeft
    split <;> omega
  refine Nat.le_trans this ?_
  simp only [demands, Budget.calls_bounded hb]
  omega

/-! ## What a finished run reports -/

/-- What the outcome of a finished run says about the calls that were made for it. -/
structure Accounted (script : Script) (origin : Session) (budget : Budget) (limit : Option Nat)
    (s : Session) (o : Outcome) : Prop where
  invocations : ∃ made, s.calls.length = origin.calls.length + made ∧
    o.summary.invocations = .tally made ∧
    (made ≤ 2 ^ 53 → o.summary.invocations.toInt? = some (made : Int))
  exhausted : (∃ bound e, o.ending = .budgetExhausted bound e) ↔
    ∃ k, Budget.enforced limit = some k ∧ s.calls.length = origin.calls.length + k + 1 ∧
      (∀ i ≤ k, ∃ response, (script.answer (origin.calls.length + i)).Continues response) ∧
      s.signal = none
  last : ∀ bound e, o.ending = .budgetExhausted bound e →
    budget = .bounded bound ∧ ∃ k response, limit = some k ∧ bound.toInt? = some (k : Int) ∧
      o.summary.invocations.toInt? = some ((k : Int) + 1) ∧
      (script.answer (origin.calls.length + k)).Continues response ∧
      e = Envelope.progressOf response

theorem budgetExhausted_iff {t : RunState} {bound : Double} {e : InProgressEvent} :
    Outcome.ending? t = some (.budgetExhausted bound e) ↔
      t.stage = .exhausted e ∧ bound = Outcome.bound t.budget t.invocationsIssued := by
  unfold Outcome.ending?
  cases t.stage <;> simp [and_comm, eq_comm]

/-- A count by ones of the calls is their number, as long as that is counted. -/
theorem tally_reported {x : Double} (made : Nat) (calls : s.calls.length = origin.calls.length + made)
    (issued : x = .tally made) :
    ∃ made, s.calls.length = origin.calls.length + made ∧ x = .tally made ∧
      (made ≤ 2 ^ 53 → x.toInt? = some (made : Int)) :=
  ⟨made, calls, issued, fun hle => by rw [issued, Double.toInt?_tally hle]⟩

theorem Underway.accounted_ended {n : Nat} {request : Request} {ending : Ending}
    (hb : budget.Adds limit) (h : Underway script origin plan budget (Budget.enforced limit) s r)
    (demand : r.demand = .nothing) (issued : r.state.invocationsIssued = .tally (n + 1))
    (course : Course plan (Budget.enforced limit) (fun n => script.answer (origin.calls.length + n)) n
      request (actsOf r.trace))
    (ends : Ends (Budget.enforced limit) n (script.answer (origin.calls.length + n)) r.state.stage)
    (unaborted : ∀ e, r.state.stage = .exhausted e → s.signal = none)
    (he : Outcome.ending? r.state = some ending) :
    Accounted script origin budget limit s ⟨Outcome.summarise r.state, ending⟩ := by
  have hlen := h.calls_length
  have hmade := course.calls_length
  rw [callsOf_actsOf] at hmade
  simp only [Run.dueCalls, demand, List.length_nil] at hlen
  -- the course allows the last call and its end suppresses the next, so the bound is met exactly
  have exhausts : ∀ e, r.state.stage = .exhausted e → ∃ response, Budget.enforced limit = some n ∧
      (script.answer (origin.calls.length + n)).Continues response ∧
      e = Envelope.progressOf response := by
    intro e hs
    rw [hs] at ends
    cases ends with
    | @exhausted response k ha hk hn =>
      have := course.within k hk
      exact ⟨response, by rw [hk, show k = n by omega], ha, rfl⟩
  refine ⟨tally_reported (n + 1) (by omega) issued, ⟨?_, ?_⟩, ?_⟩
  · rintro ⟨bound, e, rfl⟩
    obtain ⟨hs, -⟩ := budgetExhausted_iff.1 he
    obtain ⟨response, hk, ha, -⟩ := exhausts e hs
    refine ⟨n, hk, by omega, fun i hi => ?_, unaborted e hs⟩
    rcases Nat.lt_or_eq_of_le hi with hi | rfl
    · exact course.continues i hi
    · exact ⟨response, ha⟩
  · rintro ⟨k, hk, hcalls, hall, -⟩
    obtain rfl : n = k := by omega
    obtain ⟨response, ha⟩ := hall n (Nat.le_refl n)
    obtain ⟨-, -, -, hs⟩ := ends.exhausts ha
    have := budgetExhausted_iff.2 ⟨hs, rfl⟩
    rw [he] at this
    exact ⟨_, _, Option.some.inj this⟩
  · rintro bound e rfl
    obtain ⟨hs, hbound⟩ := budgetExhausted_iff.1 he
    obtain ⟨response, hk, ha, heq⟩ := exhausts e hs
    obtain ⟨hlimit, hbelow⟩ := Budget.mem_enforced.1 hk
    have counted : r.state.invocationsIssued.toInt? = some ((n : Int) + 1) := by
      rw [issued, Double.toInt?_tally hbelow.le]
      rfl
    rw [h.budget] at hbound
    cases hb with
    | unbounded => cases hlimit
    | @bounded x k hx =>
      cases hlimit
      exact ⟨by rw [hbound]; rfl, n, response, rfl, by rw [hbound]; exact hx, counted, ha, heq⟩

theorem Underway.accounted (hb : budget.Adds limit)
    (h : Underway script origin plan budget (Budget.enforced limit) s r) (hd : r.demand = .nothing) :
    ∃ o, Outcome.ofState? r.state = some o ∧ Accounted script origin budget limit s o := by
  obtain ⟨n, request, issued, course, ends, unaborted⟩ | ⟨reason, aborted, stage, issued, -⟩ :=
    h.phase.of_nothing hd
  · obtain ⟨ending, he⟩ : ∃ ending, Outcome.ending? r.state = some ending := by
      unfold Outcome.ending?
      generalize r.state.stage = stage at ends
      cases ends <;> exact ⟨_, rfl⟩
    exact ⟨⟨Outcome.summarise r.state, ending⟩, by simp [Outcome.ofState?, he],
      h.accounted_ended hb hd issued course ends unaborted he⟩
  · have hlen := h.calls_length
    simp only [Run.dueCalls, hd, List.length_nil] at hlen
    refine ⟨⟨Outcome.summarise r.state, .invocationError (.call (.cancelledBy reason))⟩,
      by simp [Outcome.ofState?, Outcome.ending?, stage],
      tally_reported (callsOf r.trace).length (by omega) issued, ⟨?_, ?_⟩, ?_⟩
    · rintro ⟨_, _, he⟩
      cases he
    · rintro ⟨_, _, _, _, hsig⟩
      rw [hsig] at aborted
      cases aborted
    · rintro _ _ he
      cases he

/-- **A bounded run is over after at most one call more than its budget adds, and every finished
    run accounts for its calls.** -/
theorem budget_accounting (script : Script) (plan : Plan) (origin : Session)
    (hb : budget.Adds limit) :
    (∀ k, Budget.enforced limit = some k → (∀ n, (script.answer n).isPrompt = true) →
      (perform script origin plan budget).2.demand = .nothing ∧
        (perform script origin plan budget).1.calls.length ≤ origin.calls.length + k + 1) ∧
    ∀ fuel s r, play script fuel origin (.start plan budget origin.signal) = (s, r) →
      r.demand = .nothing →
      ∃ o, Outcome.ofState? r.state = some o ∧ Accounted script origin budget limit s o := by
  constructor
  · intro k hk hp
    obtain ⟨rfl, hbelow⟩ := Budget.mem_enforced.1 hk
    have hd := perform_over plan origin hb hbelow hp
    have hu := play_underway script plan origin hb.enforces (demands script budget)
    rw [hk] at hu
    exact ⟨hd, hu.calls_le hd⟩
  · intro fuel s r hplay hd
    have hu := play_underway script plan origin hb.enforces fuel
    rw [hplay] at hu
    exact hu.accounted hb hd

/-- A handler that is always in progress uses up a bound of one with its second call. -/
theorem bound_of_one_accounted :
    let script : Script := ⟨[.respond (.object [("status", .text "IN_PROGRESS")])], none⟩
    let plan : Plan :=
      ⟨⟨"http://localhost", "handler"⟩, ⟨.create, .object [], .object [], "token-1"⟩⟩
    ∃ s r, perform script (.begin script) plan (.bounded (.ofNat 1)) = (s, r) ∧
      r.demand = .nothing ∧ s.calls.length = 2 ∧
      ∃ o, Outcome.ofState? r.state = some o ∧ o.summary.invocations.toInt? = some 2 ∧
        ∃ bound e, o.ending = .budgetExhausted bound e := by
  intro script plan
  have hb : (Budget.bounded (.ofNat 1)).Adds (some 1) := .bounded (by decide +kernel)
  have ha : ∀ n, script.answer n = .respond (.object [("status", .text "IN_PROGRESS")]) := by
    intro n
    cases n <;> rfl
  have hc : ∀ n, (script.answer n).Continues (.object [("status", .text "IN_PROGRESS")]) :=
    fun n => ⟨ha n, rfl⟩
  have hcalls : (perform script (.begin script) plan (.bounded (.ofNat 1))).1.calls.length = 2 := by
    decide +kernel
  have hsignal : (perform script (.begin script) plan (.bounded (.ofNat 1))).1.signal = none :=
    perform_signal _ _ rfl rfl
  obtain ⟨hover, hreport⟩ := budget_accounting script plan (.begin script) hb
  have hd := (hover 1 rfl (fun n => by rw [ha n]; rfl)).1
  obtain ⟨s, r, hp⟩ : ∃ s r, perform script (.begin script) plan (.bounded (.ofNat 1)) = (s, r) :=
    ⟨_, _, (Prod.eta _).symm⟩
  rw [hp] at hcalls hd hsignal
  obtain ⟨o, ho, hacc⟩ := hreport _ s r hp hd
  refine ⟨s, r, hp, hd, hcalls, o, ho, ?_, hacc.exhausted.2
    ⟨1, rfl, hcalls, fun i _ => ⟨_, hc _⟩, hsignal⟩⟩
  obtain ⟨made, hmade, -, counted⟩ := hacc.invocations
  obtain rfl : made = 2 := by
    have : s.calls.length = 0 + made := hmade
    rw [hcalls] at this
    omega
  exact counted (by decide)

/-- Under a bound of 2^53 - 1 added calls a handler that stays in progress is called for good: the
    run is never over, and it makes more calls than any number. -/
theorem bound_never_met :
    let script : Script := ⟨[.respond (.object [("status", .text "IN_PROGRESS")])], none⟩
    let plan : Plan :=
      ⟨⟨"http://localhost", "handler"⟩, ⟨.create, .object [], .object [], "token-1"⟩⟩
    let budget : Budget := .bounded (.ofNat (2 ^ 53 - 1))
    budget.Adds (some (2 ^ 53 - 1)) ∧ (∀ n, (script.answer n).isPrompt = true) ∧
      ∀ fuel, ∃ s r, play script fuel (.begin script) (.start plan budget none) = (s, r) ∧
        r.demand = .call ∧ s.calls.length = fuel := by
  intro script plan budget
  have hb : budget.Adds (some (2 ^ 53 - 1)) := .bounded (Double.toInt?_ofNat (by decide))
  have continues : ∀ n, (script.answer n).Continues (.object [("status", .text "IN_PROGRESS")]) := by
    intro n
    refine ⟨?_, rfl⟩
    cases n <;> rfl
  have atOnce : Double.zero.lt
      (Envelope.progressOf (.object [("status", .text "IN_PROGRESS")])).delaySeconds = false := by
    decide +kernel
  have fresh : (Session.begin script).signal = none := rfl
  refine ⟨hb, fun n => by rw [(continues n).responded]; rfl, fun fuel => ?_⟩
  have answers : ∀ i < fuel, (script.answer ((Session.begin script).calls.length + i)).Continues
      (.object [("status", .text "IN_PROGRESS")]) := fun i _ => continues _
  obtain ⟨s, r, played, demand, -, -, -, calls⟩ :=
    play_onward (hb.unending (by decide)) rfl fresh atOnce plan answers
  exact ⟨s, r, played, demand, calls.trans (Nat.zero_add fuel)⟩

end Session
end Lifecycle
