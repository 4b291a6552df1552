import Lifecycle.Event.Envelope
import Lifecycle.Proofs.Run.Budget

/- The states that a run can reach.

   A run moves by beginning a call, by taking in an accepted response while a call is
   running, and by ending in error while it is not over. `Reaches` holds of the states
   that such moves lead to in any order, with the moves that led there. What every one
   of them satisfies is `Coherent`; in particular a state that waits for a call can
   always begin one, because the budget is used up only after an event in progress. -/
namespace Lifecycle

inductive Move where
  | begin
  | take (report : Report)
  | fail (error : RunError)

namespace Move

def isBegin : Move → Bool
  | .begin => true
  | _ => false

def warnings : Move → List Warning
  | .take report => report.warnings
  | _ => []

end Move

namespace RunState

/-- Whether a state waits for a call to begin. -/
def IsReady (s : RunState) : Prop := s.stage = .pending ∨ ∃ delay, s.stage = .continuing delay

/-- The states that legal moves lead to from the start. -/
inductive Reaches (request : Request) (budget : Budget) : List Move → RunState → Prop where
  | initial : Reaches request budget [] (.initial request budget)
  | begin {moves : List Move} {s s' : RunState} (h : Reaches request budget moves s)
      (hr : s.IsReady) (hb : s.begin = .ok s') : Reaches request budget (moves ++ [.begin]) s'
  | take {moves : List Move} {s : RunState} {response : Value} {report : Report}
      (h : Reaches request budget moves s) (hr : s.stage = .running)
      (hc : Envelope.check response = .ok report) :
      Reaches request budget (moves ++ [.take report]) (s.apply report)
  | fail {moves : List Move} {s : RunState} (e : RunError) (h : Reaches request budget moves s)
      (ht : s.isTerminal = false) : Reaches request budget (moves ++ [.fail e]) (s.fail e)

/-- What a state says about the run it belongs to. -/
structure Coherent (request : Request) (budget : Budget) (limit : Option Nat) (moves : List Move)
    (s : RunState) : Prop where
  action : s.request.action = request.action
  bearerToken : s.request.bearerToken = request.bearerToken
  resourceRequest : s.request.resourceRequest = request.resourceRequest
  budget : s.budget = budget
  pending : s.stage = .pending → s.invocationCount = .zero ∧ s.lastEvent = none
  running : s.stage = .running →
    Double.one.le s.invocationCount = true ∧ s.budget.allows s.invocationCount = true
  continuing : ∀ delay, s.stage = .continuing delay →
    ∃ e, s.lastEvent = some (.inProgress e) ∧ s.request.callbackContext = e.callbackContext ∧
      delay = e.callbackDelaySeconds.getD .zero
  succeeded : ∀ e, s.stage = .succeeded e → s.lastEvent = some (.success e)
  failed : ∀ e, s.stage = .failed e → s.lastEvent = some (.failed e)
  exhausted : ∀ e, s.stage = .exhausted e →
    ∃ k : Nat, limit = some k ∧ s.invocationCount.toInt? = some ((k : Int) + 2) ∧
      s.invocationsIssued.toInt? = some ((k : Int) + 1) ∧
      s.lastEvent = some (.inProgress e) ∧ s.request.callbackContext = e.callbackContext
  count : s.invocationCount = .tally (moves.countP Move.isBegin)
  warnings : s.warnings = moves.flatMap Move.warnings

variable {request : Request} {budget : Budget} {limit : Option Nat} {moves : List Move}
  {s s' : RunState}

/-! ## Beginning a call -/

def calling (s : RunState) : RunState :=
  { s with invocationCount := s.invocationCount.add .one, stage := .running }

theorem calling_initial_count (request : Request) (budget : Budget) :
    (initial request budget).calling.invocationCount = .tally 1 := by
  simp only [calling, initial, Double.tally]

def exhaust (s : RunState) (e : InProgressEvent) : RunState :=
  { s with invocationCount := s.invocationCount.add .one, stage := .exhausted e }

theorem begin_of_ready (hr : s.IsReady) : s.begin = s.countCall := by
  obtain hs | ⟨delay, hs⟩ := hr <;> simp [RunState.begin, hs]

theorem begin_allowed (hr : s.IsReady) (h : s.budget.allows (s.invocationCount.add .one) = true) :
    s.begin = .ok s.calling := by
  rw [begin_of_ready hr]
  simp [countCall, h, calling]

theorem begin_suppressed {e : InProgressEvent} (hr : s.IsReady)
    (h : s.budget.allows (s.invocationCount.add .one) = false)
    (he : s.lastEvent = some (.inProgress e)) : s.begin = .ok (s.exhaust e) := by
  rw [begin_of_ready hr]
  simp [countCall, h, he, exhaust]

theorem ready_of_begin (h : s.begin = .ok s') : s.IsReady := by
  unfold RunState.begin at h
  cases hs : s.stage with
  | pending => exact .inl hs
  | continuing delay => exact .inr ⟨delay, hs⟩
  | _ => simp [hs] at h

/-- A call that begins is allowed by the budget; one that is not ends the run on its last event. -/
theorem begin_cases (hr : s.IsReady) (h : s.begin = .ok s') :
    (s.budget.allows (s.invocationCount.add .one) = true ∧ s' = s.calling) ∨
      (s.budget.allows (s.invocationCount.add .one) = false ∧
        ∃ e, s.lastEvent = some (.inProgress e) ∧ s' = s.exhaust e) := by
  cases ha : s.budget.allows (s.invocationCount.add .one) with
  | true =>
    rw [begin_allowed hr ha] at h
    exact .inl ⟨rfl, (Except.ok.inj h).symm⟩
  | false =>
    rw [begin_of_ready hr] at h
    simp only [countCall, ha, Bool.false_eq_true, if_false] at h
    split at h
    · rename_i e he
      exact .inr ⟨rfl, e, he, (Except.ok.inj h).symm⟩
    · cases h

/-! ## What every move preserves -/

/-- The calls that a state has counted, as a natural number, are within the limit, the one that a
    used-up budget suppressed aside; a run that continues has counted one. -/
def CountsWithin (limit : Option Nat) (s : RunState) : Prop :=
  ∃ n : Nat, s.invocationCount = .tally n ∧
    ((∃ e, s.stage = .exhausted e) ∨ ∀ k ∈ Budget.enforced limit, n ≤ k + 1) ∧
    ((∃ delay, s.stage = .continuing delay) → 1 ≤ n)

theorem initial_coherent : Coherent request budget limit [] (.initial request budget) := by
  constructor <;> simp [initial, Double.tally_zero]

theorem initial_countsWithin : CountsWithin limit (.initial request budget) :=
  ⟨0, rfl, .inr fun _ _ => Nat.zero_le _, fun _ => by simp_all [initial]⟩

theorem begin_coherent (hb : budget.Adds limit) (h : Coherent request budget limit moves s)
    (hn : CountsWithin limit s) (hr : s.IsReady) (hs : s.begin = .ok s') :
    Coherent request budget limit (moves ++ [.begin]) s' ∧ CountsWithin limit s' := by
  obtain ⟨n, hcount, hle, hone⟩ := hn
  have hnext : s.invocationCount.add .one = .tally (n + 1) := by rw [hcount, Double.tally_succ]
  have hmoves : s.invocationCount.add .one = .tally ((moves ++ [Move.begin]).countP Move.isBegin) := by
    simp [h.count, Move.isBegin, Double.tally_succ]
  have hwarn : s.warnings = (moves ++ [Move.begin]).flatMap Move.warnings := by
    simp [h.warnings, Move.warnings]
  obtain ⟨ha, rfl⟩ | ⟨ha, e, he, rfl⟩ := begin_cases hr hs
  · have hlimit : ∀ k ∈ Budget.enforced limit, n ≤ k := by
      rwa [h.budget, hnext, hb.enforces n] at ha
    refine ⟨⟨h.action, h.bearerToken, h.resourceRequest, h.budget, nofun, ?_, nofun, nofun, nofun,
      nofun, hmoves, hwarn⟩, n + 1, hnext, .inr ?_, nofun⟩
    · refine fun _ => ⟨?_, ha⟩
      show Double.one.le (s.invocationCount.add .one) = true
      rw [hnext, (Double.tally_compares Double.toInt?_one (by decide) _).1, decide_eq_true_eq]
      omega
    · intro k hk
      have := hlimit k hk
      omega
  · -- the suppressed call comes after an event in progress, and is the first beyond the limit
    obtain ⟨k, hk, hlt⟩ : ∃ k, Budget.enforced limit = some k ∧ k < n := by
      rwa [h.budget, hnext, hb.enforces.suppresses_iff] at ha
    obtain ⟨hlimit, hbelow⟩ := Budget.mem_enforced.1 hk
    have hctx : s.request.callbackContext = e.callbackContext := by
      obtain hp | ⟨delay, hc⟩ := hr
      · rw [(h.pending hp).2] at he; cases he
      · obtain ⟨e', he', hctx, -⟩ := h.continuing delay hc
        rw [he'] at he
        cases he
        exact hctx
    have hnk : n = k + 1 := by
      obtain ⟨e', hx⟩ | hx := hle
      · obtain hp | ⟨delay, hc⟩ := hr <;> simp_all
      · have := hx k hk
        omega
    refine ⟨⟨h.action, h.bearerToken, h.resourceRequest, h.budget, nofun, nofun, nofun, nofun, nofun,
      ?_, hmoves, hwarn⟩, n + 1, hnext, .inl ⟨e, rfl⟩, nofun⟩
    intro e' he'
    cases he'
    refine ⟨k, hlimit, ?_, ?_, he, hctx⟩
    · show (s.invocationCount.add .one).toInt? = _
      rw [hnext, Double.toInt?_tally (by omega), hnk]
      rfl
    · show ((s.invocationCount.add .one).sub .one).toInt? = _
      rw [hnext, Double.tally_sub_one (by omega), Double.toInt?_tally (by omega), hnk]
      rfl

theorem take_coherent (report : Report) (h : Coherent request budget limit moves s)
    (hn : CountsWithin limit s) (hr : s.stage = .running) :
    Coherent request budget limit (moves ++ [.take report]) (s.apply report) ∧
      CountsWithin limit (s.apply report) := by
  obtain ⟨n, hcount, hle, -⟩ := hn
  have hone : 1 ≤ n := by
    have hcounted := (h.running hr).1
    rwa [hcount, (Double.tally_compares Double.toInt?_one (by decide) n).1, decide_eq_true_eq] at hcounted
  have hlimit : ∀ k ∈ Budget.enforced limit, n ≤ k + 1 := by
    obtain ⟨e, he⟩ | hx := hle
    · rw [hr] at he; cases he
    · exact hx
  have hmoves : s.invocationCount = .tally ((moves ++ [Move.take report]).countP Move.isBegin) := by
    simp [h.count, Move.isBegin]
  have hwarn : s.warnings ++ report.warnings = (moves ++ [Move.take report]).flatMap Move.warnings := by
    simp [h.warnings, Move.warnings]
  obtain ⟨event, warnings⟩ := report
  cases event with
  | success e =>
    exact ⟨⟨h.action, h.bearerToken, h.resourceRequest, h.budget, nofun, nofun, nofun,
      fun _ he => by cases he; rfl, nofun, nofun, hmoves, hwarn⟩, n, hcount, .inr hlimit, nofun⟩
  | failed e =>
    exact ⟨⟨h.action, h.bearerToken, h.resourceRequest, h.budget, nofun, nofun, nofun, nofun,
      fun _ he => by cases he; rfl, nofun, hmoves, hwarn⟩, n, hcount, .inr hlimit, nofun⟩
  | inProgress e =>
    exact ⟨⟨h.action, h.bearerToken, h.resourceRequest, h.budget, nofun, nofun,
      fun _ hd => by cases hd; exact ⟨e, rfl, rfl, rfl⟩, nofun, nofun, nofun, hmoves, hwarn⟩,
      n, hcount, .inr hlimit, fun _ => hone⟩

theorem fail_coherent (e : RunError) (h : Coherent request budget limit moves s)
    (hn : CountsWithin limit s) (ht : s.isTerminal = false) :
    Coherent request budget limit (moves ++ [.fail e]) (s.fail e) ∧
      CountsWithin limit (s.fail e) := by
  obtain ⟨n, hcount, hle, -⟩ := hn
  have hlimit : ∀ k ∈ Budget.enforced limit, n ≤ k + 1 := by
    obtain ⟨e, he⟩ | hx := hle
    · simp [isTerminal, Stage.isTerminal, he] at ht
    · exact hx
  have hmoves : s.invocationCount = .tally ((moves ++ [Move.fail e]).countP Move.isBegin) := by
    simp [h.count, Move.isBegin]
  have hwarn : s.warnings = (moves ++ [Move.fail e]).flatMap Move.warnings := by
    simp [h.warnings, Move.warnings]
  exact ⟨⟨h.action, h.bearerToken, h.resourceRequest, h.budget, nofun, nofun, nofun, nofun, nofun,
    nofun, hmoves, hwarn⟩, n, hcount, .inr hlimit, nofun⟩

theorem Reaches.coherent (hb : budget.Adds limit) (h : Reaches request budget moves s) :
    Coherent request budget limit moves s ∧ CountsWithin limit s := by
  induction h with
  | initial => exact ⟨initial_coherent, initial_countsWithin⟩
  | begin _ hr hs ih => exact begin_coherent hb ih.1 ih.2 hr hs
  | take _ hr _ ih => exact take_coherent _ ih.1 ih.2 hr
  | fail e _ ht ih => exact fail_coherent e ih.1 ih.2 ht

/-- A coherent state that waits for a call begins one, or ends with its budget used up. -/
theorem Coherent.begins (h : Coherent request budget limit moves s)
    (hr : s.IsReady) : ∃ s', s.begin = .ok s' := by
  cases ha : s.budget.allows (s.invocationCount.add .one) with
  | true => exact ⟨_, begin_allowed hr ha⟩
  | false =>
    obtain hp | ⟨delay, hc⟩ := hr
    · rw [(h.pending hp).1, Budget.allows_first] at ha
      cases ha
    · obtain ⟨e, he, -⟩ := h.continuing delay hc
      exact ⟨_, begin_suppressed (.inr ⟨delay, hc⟩) ha he⟩

/-! ## The reachable states -/

/-- **Every reachable state is coherent, and one that waits for a call can begin it.** The moves
    may come in any order that is legal, and the budget may be any. -/
theorem reachable_coherent (hb : budget.Adds limit) (h : Reaches request budget moves s) :
    Coherent request budget limit moves s ∧ (s.IsReady → ∃ s', s.begin = .ok s') :=
  ⟨(h.coherent hb).1, (h.coherent hb).1.begins⟩

/-- Under a bound of zero the call after an event in progress is suppressed. -/
theorem suppressed_call_coherent :
    ∃ s e, s.stage = .exhausted e ∧
      Reaches ⟨.create, .object [], .object [], "token-1"⟩ (.bounded .zero)
        [.begin, .take ⟨.inProgress e, []⟩, .begin] s ∧
      Coherent ⟨.create, .object [], .object [], "token-1"⟩ (.bounded .zero) (some 0)
        [.begin, .take ⟨.inProgress e, []⟩, .begin] s := by
  have hb : (Budget.bounded .zero).Adds (some 0) := .bounded (by decide +kernel)
  have first : Reaches ⟨.create, .object [], .object [], "token-1"⟩ (.bounded .zero) _ _ :=
    .begin .initial (.inl rfl) (begin_allowed (.inl rfl) (Budget.allows_first _))
  have accepted : Envelope.check (.object [("status", .text "IN_PROGRESS")]) = .ok _ := rfl
  have answered := first.take rfl accepted
  have suppressed := answered.begin (.inr ⟨_, rfl⟩)
    (begin_suppressed (.inr ⟨_, rfl⟩) (by decide +kernel) rfl)
  exact ⟨_, _, rfl, suppressed, (reachable_coherent hb suppressed).1⟩

end RunState
end Lifecycle
