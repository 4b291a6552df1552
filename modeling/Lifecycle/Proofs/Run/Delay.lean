import Lifecycle.Proofs.Event.Delay
import Lifecycle.Proofs.Number.Rounding
import Lifecycle.Proofs.Run.Cancellation

/- The wait that a run asks for, beside the delay that the handler asked for.

   The delay of a response is a literal of any length. The run reads it as the nearest double and
   multiplies it by a thousand, so the wait is rounded twice, and either time it may be rounded
   down. `wait_as_asked` says how much of the delay is left: all but one part in 2^53, twice, and all
   of it as long as the delay is below 2^53 / 125 seconds. `rounded_wait` is a delay of which one
   second is lost. -/
namespace Lifecycle

/-! ## Seconds as milliseconds -/

namespace Literal

variable {l : Literal} {n : Nat}

theorem scale_atLeast (h : l.value = n) (hn : 0 < n) : (l.toDouble.scale 1000).AtLeast
    (n * Double.stepsPerOne / (1 + Double.unitRoundoff) * 1000 / (1 + Double.unitRoundoff)) := by
  have hu := Double.unitRoundoff_pos
  have hsmall : Double.unitRoundoff ≤ 1 := by norm_num [Double.unitRoundoff]
  have hlarge : (2 * binade : ℚ) ≤ n * Double.stepsPerOne := by
    exact_mod_cast Double.two_binade_le_one.trans (Nat.le_mul_of_pos_left _ hn)
  have hbinade : (binade : ℚ) ≤ n * Double.stepsPerOne / (1 + Double.unitRoundoff) := by
    rw [le_div_iff₀ (by linarith)]
    have : (binade : ℚ) * (1 + Double.unitRoundoff) ≤ binade * 2 :=
      mul_le_mul_of_nonneg_left (by linarith) binade.cast_nonneg
    linarith
  exact_mod_cast (toDouble_atLeast h hn).scale hbinade (show 0 < 1000 by decide)

/-- **The wait reaches every number of milliseconds that still is no more than the delay after it has
    grown by one part in 2^53 twice.** -/
theorem scale_reaches (h : l.value = n) (hn : 0 < n) {m : Nat}
    (hm : (m : ℚ) * (1 + Double.unitRoundoff) ^ 2 ≤ 1000 * n) :
    (l.toDouble.scale 1000).reaches m = true := by
  refine (scale_atLeast h hn).reaches ?_
  have hu := Double.unitRoundoff_pos
  have hone : (0 : ℚ) ≤ Double.stepsPerOne := Double.stepsPerOne.cast_nonneg
  rw [le_div_iff₀ (by linarith), div_mul_eq_mul_div, le_div_iff₀ (by linarith)]
  have := mul_le_mul_of_nonneg_right hm hone
  linarith

/-- **The wait for a shorter delay is exact.** -/
theorem scale_toInt? (h : l.value = n) (hn : 0 < n) (hshort : 125 * n < 2 ^ 53) :
    (l.toDouble.scale 1000).toInt? = some ((n * 1000 : Nat) : Int) := by
  obtain ⟨rank, hrank, hunits⟩ := toDouble_of_value h (by omega)
  have hpositive : l.negative = false := by
    by_contra hnegative
    have hzero := (magnitude_of_value h).2 (Bool.eq_true_of_not_eq_false hnegative)
    omega
  rw [hrank, hpositive]
  exact Double.scale_exact (e := 3) hunits (by ring) hshort (by decide)

end Literal

namespace Session

open Envelope (check delayOf progressOf DelayText)

variable {script : Script} {s : Session} {r : Run} {t : Text} {d : Document} {l : Literal} {n : Nat}

/-! ## One answer and its wait -/

theorem serve_pausing {response : Value} {delay : Double} (calling : r.demand = .call)
    (answered : script.answer s.calls.length = .respond response)
    (accepted : check response = .ok ⟨.inProgress (progressOf response), []⟩)
    (delayed : delayOf response = some delay) (positive : Double.zero.lt delay = true)
    (within : r.state.budget.allows (r.state.invocationCount.add .one) = true) :
    ∃ s' r', serve script s r = some (s', r') ∧ r'.demand = .wait (delay.scale 1000) ∧
      s'.waits = s.waits := by
  have hstage : (r.taking ⟨.inProgress (progressOf response), []⟩).state.stage = .continuing delay := by
    show Stage.continuing ((delayOf response).getD .zero) = _
    rw [delayed]
    rfl
  have hgives : (script.answer s.calls.length).Gives
      (script.signalAfter (.call (s.calls.length + 1)) s.signal) (.responded response) := by
    rw [answered]
    exact .responded
  have hserve := serve_answered calling rfl hgives
  rw [Run.resumeCall_accepted accepted, Run.proceed_pausing hstage positive within] at hserve
  exact ⟨_, _, hserve, rfl, rfl⟩

/-- **A delay is waited for before the next call, but for two roundings.** The response comes as a
    text and asks for a positive number of seconds of any size, in any spelling that is accepted. -/
theorem wait_as_asked {response : Value} {e : InProgressEvent} {warnings : List Warning}
    (calling : r.demand = .call) (answered : script.answer s.calls.length = .respond response)
    (read : Json.document? t = some d) (parsed : Json.parse? t = some response)
    (accepted : check response = .ok ⟨.inProgress e, warnings⟩)
    (delay : d.child? (.member "callbackDelaySeconds") = some (.number l))
    (asked : l.value = n) (positive : 0 < n)
    (within : r.state.budget.allows (r.state.invocationCount.add .one) = true) :
    ∃ s₁ r₁ s₂ r₂ w, serve script s r = some (s₁, r₁) ∧ serve script s₁ r₁ = some (s₂, r₂) ∧
      s₂.waits = s.waits ++ [w] ∧ s₂.calls = s₁.calls ∧
      (∀ m : Nat, (m : ℚ) * (1 + Double.unitRoundoff) ^ 2 ≤ 1000 * n → w.reaches m = true) ∧
      (125 * n < 2 ^ 53 → w.toInt? = some ((n * 1000 : Nat) : Int)) := by
  obtain rfl : response = d.toValue := by
    rw [Json.parse?, read] at parsed
    exact (Option.some.inj parsed).symm
  obtain ⟨rfl, rfl⟩ := Envelope.check_inProgress accepted
  have delayed := (DelayText.of_accepted read accepted delay).delayOf_eq accepted
  have hpositive : Double.zero.lt l.toDouble = true := by
    refine (Literal.toDouble_atLeast asked positive).zero_lt ?_
    have hu := Double.unitRoundoff_pos
    have hn : (0 : ℚ) < n := by exact_mod_cast positive
    have hone : (0 : ℚ) < Double.stepsPerOne := by exact_mod_cast Double.stepsPerOne_pos
    exact div_pos (mul_pos hn hone) (by linarith)
  obtain ⟨s₁, r₁, hserve, hdemand, hwaits⟩ :=
    serve_pausing calling answered accepted delayed hpositive within
  refine ⟨s₁, r₁, _, _, _, hserve, serve_woken hdemand rfl, by rw [hwaits], rfl, ?_, ?_⟩
  · intro m hm
    exact Literal.scale_reaches asked positive hm
  · intro hshort
    exact Literal.scale_toInt? asked positive hshort

/-- The run of an operation whose handler gives one response in progress and then succeeds. -/
def delayedOnce (response : Value) : Script :=
  ⟨[.respond response, .respond (.object [("status", .text Status.success.name)])], none⟩

/-- A plan for the run of a handler that is given. -/
def anyPlan : Plan :=
  ⟨⟨"http://localhost", "handler"⟩, ⟨.create, .object [], .object [], "token-1"⟩⟩

/-- An integer of seconds that no double holds is waited for but for three seconds. -/
theorem long_delay_waited :
    let t : Text := "\x7b\"status\":\"IN_PROGRESS\",\"callbackDelaySeconds\":9007199254740993\x7d"
    ∃ d response s₁ r₁ s₂ r₂ w, Json.document? t = some d ∧ Json.parse? t = some response ∧
      serve (delayedOnce response) (.begin (delayedOnce response)) (.start anyPlan .unbounded none) =
        some (s₁, r₁) ∧
      serve (delayedOnce response) s₁ r₁ = some (s₂, r₂) ∧ s₂.waits = [w] ∧
      w.reaches (1000 * 9007199254740990) = true := by
  intro t
  let l : Literal := ⟨false, 9007199254740993, [], none⟩
  have hread : (Json.document? t).map Envelope.delayReading =
      some (some l, true, some Status.inProgress.name, true) := by decide +kernel
  obtain ⟨d, h, hexact⟩ := Envelope.delayText_of_reading hread
  have htaken : Envelope.delaySeconds? (Document.numberValue d.isConsistent l) = some l.toDouble := by
    rw [hexact]
    decide +kernel
  have asked : l.value = (9007199254740993 : Nat) := Literal.value_of_isInteger rfl rfl
  have calling : (Run.start anyPlan .unbounded none).demand = .call := rfl
  have answered : (delayedOnce d.toValue).answer (Session.begin (delayedOnce d.toValue)).calls.length =
      .respond d.toValue := rfl
  obtain ⟨s₁, r₁, s₂, r₂, w, hserve, hserve', hwaits, -, hreaches, -⟩ :=
    wait_as_asked calling answered h.read h.parsed (h.check_taken htaken) h.delay asked (by decide) rfl
  refine ⟨d, d.toValue, s₁, r₁, s₂, r₂, w, h.read, h.parsed, hserve, hserve', hwaits, hreaches _ ?_⟩
  norm_num [Double.unitRoundoff]

/-- Of a delay of 9007199254740993 seconds one is lost: the wait is rounded down. -/
theorem rounded_wait :
    let t : Text := "\x7b\"status\":\"IN_PROGRESS\",\"callbackDelaySeconds\":9007199254740993\x7d"
    ∃ d l response w, Json.document? t = some d ∧ Json.parse? t = some response ∧
      d.child? (.member "callbackDelaySeconds") = some (.number l) ∧
      l.value = (9007199254740993 : Nat) ∧
      (perform (delayedOnce response) (.begin (delayedOnce response)) anyPlan .unbounded).1.waits = [w] ∧
      w.toInt? = some (1000 * 9007199254740992) ∧ w.reaches (1000 * 9007199254740993) = false := by
  intro t
  let l : Literal := ⟨false, 9007199254740993, [], none⟩
  have hread : (Json.document? t).map Envelope.delayReading =
      some (some l, true, some Status.inProgress.name, true) := by decide +kernel
  obtain ⟨d, h, -⟩ := Envelope.delayText_of_reading hread
  have hwaits : (Json.document? t).map (fun d =>
      (perform (delayedOnce d.toValue) (.begin (delayedOnce d.toValue)) anyPlan .unbounded).1.waits) =
        some [l.toDouble.scale 1000] := by decide +kernel
  rw [h.read, Option.map_some] at hwaits
  have hint : (l.toDouble.scale 1000).toInt? = some (1000 * 9007199254740992) := by decide +kernel
  refine ⟨d, l, d.toValue, _, h.read, h.parsed, h.delay, Literal.value_of_isInteger rfl rfl,
    Option.some.inj hwaits, hint, ?_⟩
  rw [← Bool.not_eq_true, Double.reaches_iff hint]
  decide

end Session

end Lifecycle
