import Lifecycle.Proofs.Call.Agreement
import Lifecycle.Proofs.Json.Normal
import Lifecycle.Proofs.Run.Played
import Lifecycle.Proofs.Run.Verdict
import Lifecycle.Report.OfOutcome

/- Rejected responses, from the reply of an endpoint to the result of a command.

   A reply is rejected for the first test that it fails (`RejectedReply`): four of them look
   at the function and at the text, the rest is the check of the event. Without an abort the
   reply to the last call decides a run (`Undisturbed`), so the run ends in error exactly if
   that reply is rejected. Its result then has the text of the reply for a body, or a text
   that denotes the response in it. -/
namespace Lifecycle

/-! ## Replies -/

/-- Whether the function that gave a reply has raised an error. -/
def Reply.Raised (reply : Reply) : Prop := ∃ name, reply.functionError = some name ∧ name ≠ []

/-- Whether there is nothing in a reply but white space. -/
def Reply.Blank (reply : Reply) : Prop := ∀ u ∈ reply.text, Text.isBlank u = true

/-- The error with which a reply is rejected: that of the first test it fails. -/
inductive RejectedReply (reply : Reply) : RunError → Prop where
  | raised {name : Text} (h : reply.functionError = some name) (named : name ≠ []) :
      RejectedReply reply (.call (.protocol ("Handler function raised an error (" ++ name ++
        ") instead of returning a progress event") (some reply.text)))
  | blank (quiet : ¬ reply.Raised) (h : reply.Blank) :
      RejectedReply reply (.call (.protocol "Handler returned an empty payload" (some reply.text)))
  | unparsed (quiet : ¬ reply.Raised) (filled : ¬ reply.Blank) (h : Json.parse? reply.text = none) :
      RejectedReply reply (.call (.protocol
        "Handler payload is not valid JSON: <json syntax error>" (some reply.text)))
  | notObject {v : Value} (quiet : ¬ reply.Raised) (parsed : Json.parse? reply.text = some v)
      (h : v.isObject = false) :
      RejectedReply reply (.call (.protocol "Handler payload is not a JSON object" (some reply.text)))
  | invalid {v : Value} {e : EventError} (quiet : ¬ reply.Raised)
      (parsed : Json.parse? reply.text = some v) (object : v.isObject = true)
      (h : Envelope.check v = .error e) : RejectedReply reply (.event e)

theorem Text.trim_isEmpty_iff {t : Text} : t.trim.isEmpty = true ↔ ∀ u ∈ t, isBlank u = true := by
  refine ⟨Json.isBlank_of_trim, fun h => ?_⟩
  rw [trim, List.dropWhile_eq_nil_iff.2 h]
  rfl

theorem Reply.response_quiet {reply : Reply} (quiet : ¬ reply.Raised) :
    reply.response = responseOf reply.text := by
  apply response_eq
  cases hf : reply.functionError with
  | none => rfl
  | some name => exact Classical.byContradiction fun named => quiet ⟨name, hf, named⟩

theorem Reply.response_cases (reply : Reply) :
    (∃ e, reply.response = .error e ∧ RejectedReply reply (.call e)) ∨
    ∃ v, reply.response = .ok v ∧ ¬ reply.Raised ∧ Json.parse? reply.text = some v ∧
      v.isObject = true := by
  by_cases raised : reply.Raised
  · obtain ⟨name, h, named⟩ := raised
    obtain ⟨u, rest, rfl⟩ := List.exists_cons_of_ne_nil named
    refine .inl ⟨_, ?_, .raised h named⟩
    rw [response, h]
  · rw [response_quiet raised, responseOf]
    by_cases blank : reply.text.trim.isEmpty = true
    · rw [if_pos blank]
      exact .inl ⟨_, rfl, .blank raised (Text.trim_isEmpty_iff.1 blank)⟩
    · rw [if_neg blank]
      cases parsed : Json.parse? reply.text with
      | none => exact .inl ⟨_, rfl, .unparsed raised (fun h => blank (Text.trim_isEmpty_iff.2 h)) parsed⟩
      | some v =>
        cases object : v.isObject with
        | false => exact .inl ⟨_, by simp [object], .notObject raised parsed object⟩
        | true => exact .inr ⟨v, by simp [object], raised, rfl, object⟩

/-- **A reply ends a run in error exactly if it is rejected**, and with just that error. -/
theorem Reply.decides_iff {reply : Reply} {error : RunError} :
    (CallResult.ofExcept reply.response).Decides (.errored error) ↔ RejectedReply reply error := by
  constructor
  · intro h
    obtain ⟨e, failed, rejected⟩ | ⟨v, taken, quiet, parsed, object⟩ := reply.response_cases
    · rw [failed] at h
      cases h
      exact rejected
    · rw [taken] at h
      cases h with
      | rejected hc => exact .invalid quiet parsed object hc
  · intro h
    have filled {v : Value} (parsed : Json.parse? reply.text = some v) :
        ¬ reply.text.trim.isEmpty = true := by
      intro blank
      rw [Json.parse?, Json.document?_of_trim blank] at parsed
      cases parsed
    cases h with
    | raised h named =>
      obtain ⟨u, rest, rfl⟩ := List.exists_cons_of_ne_nil named
      rw [response, h]
      exact .failed
    | blank quiet blank =>
      rw [response_quiet quiet, responseOf, if_pos (Text.trim_isEmpty_iff.2 blank)]
      exact .failed
    | unparsed quiet filled h =>
      rw [response_quiet quiet, responseOf, if_neg (mt Text.trim_isEmpty_iff.1 filled), h]
      exact .failed
    | @notObject v quiet parsed h =>
      have refused : responseOf reply.text =
          .error (.protocol "Handler payload is not a JSON object" (some reply.text)) := by
        simp [responseOf, filled parsed, parsed, h]
      rw [response_quiet quiet, refused]
      exact .failed
    | @invalid v e quiet parsed object hc =>
      have taken : responseOf reply.text = .ok v := by
        simp [responseOf, filled parsed, parsed, object]
      rw [response_quiet quiet, taken]
      exact .rejected hc

/-! ## Runs without an abort -/

namespace Clock

theorem pass_unplanned {c : Clock} (h : c.planned = none) (delay : Double) :
    (c.pass delay).1.signal = c.signal ∧ (c.pass delay).1.planned = none ∧
      (c.pass delay).2 = .fired := by
  have undue : c.due? delay = none := by rw [due?, h]
  rw [pass, undue]
  exact ⟨rfl, h, rfl⟩

end Clock

theorem Wait.waitWith_unplanned (fuel : Nat) {c : Clock} (milliseconds : Double)
    (unaborted : c.signal = none) (unplanned : c.planned = none) :
    (waitWith fuel c milliseconds).1.signal = none ∧
      (waitWith fuel c milliseconds).1.planned = none ∧
      ∀ error, (waitWith fuel c milliseconds).2 ≠ .cancelled error := by
  induction fuel generalizing c milliseconds with
  | zero => exact ⟨unaborted, unplanned, nofun⟩
  | succ fuel ih =>
    rw [waitWith, unaborted]
    dsimp only
    split
    · obtain ⟨signal, planned, fired⟩ :=
        Clock.pass_unplanned (c := c.set (slice milliseconds)) unplanned (slice milliseconds)
      generalize (c.set (slice milliseconds)).pass (slice milliseconds) = passed at signal planned fired
      obtain ⟨c', passing⟩ := passed
      cases fired
      exact ih _ (signal.trans unaborted) planned
    · exact ⟨unaborted, unplanned, nofun⟩

namespace Playback

variable {e : Endpoint} {plan : Plan} {budget : Budget} {p p' : Playback} {r r' : Run}
  {last : Option CallResult}

/-- What the last call that was sent came to: its reply decides, if it got one. -/
inductive LastReply (e : Endpoint) (sent : List (Target × Request)) : Option CallResult → Prop where
  | unsent (h : sent = []) : LastReply e sent none
  | sent {result : CallResult} (h : sent ≠ []) (gives : ∀ reply,
      answer e (sent.length - 1) = .reply reply → result = .ofExcept reply.response) :
      LastReply e sent (some result)

/-- A run on a clock that no abort is planned for stands where the last reply has left it. -/
structure Undisturbed (e : Endpoint) (p : Playback) (r : Run) : Prop where
  unaborted : p.clock.signal = none
  unplanned : p.clock.planned = none
  poised : ∃ last, LastReply e p.sent last ∧ Poised last p.sent.length none r

theorem undisturbed_start (e : Endpoint) {c : Clock} (plan : Plan) (budget : Budget)
    (unaborted : c.signal = none) (unplanned : c.planned = none) :
    Undisturbed e ⟨c, []⟩ (.start plan budget none) :=
  ⟨unaborted, unplanned, none, .unsent rfl, .start plan budget none⟩

/-- A call without an abort is sent, and comes to what its reply says if it gets one. -/
theorem call_unplanned (e : Endpoint) (p : Playback) (target : Target) (request : Request)
    (unaborted : p.clock.signal = none) (unplanned : p.clock.planned = none) :
    (call e p target request).1.clock.signal = none ∧
      (call e p target request).1.clock.planned = none ∧
      (call e p target request).1.sent = p.sent ++ [(target, request)] ∧
      ∀ reply, answer e p.sent.length = .reply reply →
        (call e p target request).2 = .ofExcept reply.response := by
  simp only [call, Exchange.begin, unaborted]
  cases ha : answer e p.sent.length with
  | reply reply =>
    refine ⟨unaborted, unplanned, trivial, ?_⟩
    rintro _ ⟨⟩
    rfl
  | refuse refusal =>
    refine ⟨unaborted, unplanned, trivial, ?_⟩
    rintro _ ⟨⟩
  | silence =>
    obtain ⟨signal, planned, fired⟩ :=
      Clock.pass_unplanned (c := p.clock.set e.timeoutMs) unplanned e.timeoutMs
    simp only [firstEvent, fired, eventOf, release]
    refine ⟨signal.trans unaborted, planned, trivial, ?_⟩
    rintro _ ⟨⟩

theorem Undisturbed.serve (h : Undisturbed e p r) (hs : serve e p r = some (p', r')) :
    Undisturbed e p' r' := by
  obtain ⟨unaborted, unplanned, last, hlast, poised⟩ := h
  unfold Playback.serve at hs
  cases hd : r.demand with
  | call =>
    simp only [hd, Option.some.injEq, Prod.mk.injEq] at hs
    obtain ⟨rfl, rfl⟩ := hs
    obtain ⟨signal, planned, sent, gives⟩ :=
      call_unplanned e p r.target r.state.request unaborted unplanned
    have hlen : (call e p r.target r.state.request).1.sent.length = p.sent.length + 1 := by
      rw [sent, List.length_append, List.length_singleton]
    refine ⟨signal, planned, some (call e p r.target r.state.request).2, .sent ?_ ?_, ?_⟩
    · rw [sent]
      exact List.append_ne_nil_of_right_ne_nil _ (List.cons_ne_nil _ _)
    · rw [hlen]
      exact gives
    · rw [hlen, signal]
      obtain ⟨-, count, allowed, -⟩ := poised.of_call hd
      exact .resumeCall _ none count allowed
  | wait milliseconds =>
    obtain ⟨signal, planned, uncancelled⟩ := Wait.waitWith_unplanned
      (Wait.timers p.clock milliseconds) milliseconds unaborted unplanned
    rw [← Wait.wait] at signal planned uncancelled
    simp only [hd] at hs
    split at hs
    · rename_i c hw
      cases hs
      rw [hw] at signal planned
      refine ⟨signal, planned, last, hlast, ?_⟩
      rw [show c.signal = none from signal]
      exact poised.resumeWait hd none
    · rename_i c error hw
      exact absurd (by rw [hw]) (uncancelled error)
    · cases hs
  | nothing => simp [hd] at hs
  | crashed fault => simp [hd] at hs

theorem play_undisturbed (fuel : Nat) (h : Undisturbed e p r) :
    Undisturbed e (play e fuel p r).1 (play e fuel p r).2 :=
  Run.drive_induction (fun _ _ _ _ h hs => h.serve hs) fuel h

/-- Such a run ends in error exactly if the reply to its last call is rejected. -/
theorem Undisturbed.errored_iff {reply : Reply} (h : Undisturbed e p r) (hd : r.demand = .nothing)
    (replied : answer e (p.sent.length - 1) = .reply reply) (error : RunError) :
    r.state.stage = .errored error ↔ RejectedReply reply error := by
  obtain ⟨last, hlast, poised⟩ := h.poised
  rw [← Reply.decides_iff]
  obtain ⟨-, concluded⟩ := poised.of_nothing hd
  cases hlast with
  | unsent =>
    generalize r.state.stage = stage at concluded
    cases concluded with
    | unsent aborted => cases aborted
  | sent hsent gives =>
    rw [gives reply replied] at concluded
    exact concluded.errored_iff_decides

end Playback

/-! ## Evidence -/

theorem Envelope.raw_of_check {raw : Value} {e : EventError} (h : check raw = .error e) :
    e.raw = raw := by
  have kept {code : EventErrorCode} {message : Text} (h : reject raw code message = .error e) :
      e.raw = raw := by
    cases h
    rfl
  rw [check] at h
  split at h
  · exact kept h
  cases hs : status? raw with
  | none =>
    rw [hs] at h
    exact kept h
  | some s =>
    rw [hs] at h
    cases hi : issues raw with
    | cons => simp only [hi] at h; exact kept h
    | nil =>
      simp only [hi] at h
      cases s with
      | success => cases h
      | failed =>
        rw [report] at h
        split at h
        · cases h
        · exact kept h
      | inProgress =>
        rw [report] at h
        split at h
        · cases h
        · split at h
          · cases h
          · exact kept h

namespace Json

/-- What was read from a text is read again from its print, to be printed alike. -/
theorem printed_again {t : Text} {v : Value} {indent : Text} (hi : Blank indent)
    (h : parse? t = some v) :
    ∃ w, parse? (print indent v) = some w ∧ compact w = compact v := by
  obtain ⟨d, -, rfl⟩ := Option.map_eq_some_iff.1 h
  have htree : d.toValue.Tree fun v => ∀ l, v = .exact l → l.isSafe = false :=
    Document.value_keptExact _ d
  refine ⟨_, parse?_print hi htree, ?_⟩
  apply textOf_mapLeaves htree
  · intro v hs _
    exact Value.comesBack_scalar hs
  · intro v level hs hu
    exact Value.textOf_comesBack hs hu

end Json

/-- What a result holds for evidence of a rejected reply: the text of the reply as it is if there is
    no response in it, and otherwise a text that denotes the response. -/
inductive Evidence (reply : Reply) : RunError → Text → Prop where
  | verbatim {e : CallError} (code : e.code = "PROTOCOL_ERROR") :
      Evidence reply (.call e) reply.text
  | printed {e : EventError} {v w : Value} {body : Text} (parsed : Json.parse? reply.text = some v)
      (raw : e.raw = v) (again : Json.parse? body = some w) (alike : Json.compact w = Json.compact v) :
      Evidence reply (.event e) body

theorem RejectedReply.evidence {reply : Reply} {error : RunError} (h : RejectedReply reply error) :
    ∃ body, error.evidence = some body ∧ Evidence reply error body := by
  cases h with
  | raised => exact ⟨_, rfl, .verbatim rfl⟩
  | blank => exact ⟨_, rfl, .verbatim rfl⟩
  | unparsed => exact ⟨_, rfl, .verbatim rfl⟩
  | notObject => exact ⟨_, rfl, .verbatim rfl⟩
  | @invalid v e quiet parsed object hc =>
    have raw : e.raw = v := Envelope.raw_of_check hc
    have indent : Json.indentOf (.number (.ofNat 2)) = "  " := by decide +kernel
    have blank : Json.Blank ("  " : Text) := by
      rw [← indent]
      exact Json.blank_indentOf _
    obtain ⟨w, again, alike⟩ := Json.printed_again blank parsed
    refine ⟨_, rfl, .printed parsed raw ?_ alike⟩
    rw [Json.pretty, raw]
    exact again

namespace Playback

variable {e : Endpoint} {p : Playback} {r : Run}

/-- **A rejected response is reported intact.** Without an abort a run whose last call got a reply
    ends in error exactly if the reply is rejected, and with just that error. Its result then has
    status 5 and the evidence for its body. -/
theorem rejected_reply_reported (e : Endpoint) {c : Clock} (plan : Plan) (budget : Budget)
    (unaborted : c.signal = none) (unplanned : c.planned = none) {fuel : Nat} {reply : Reply}
    (hp : play e fuel ⟨c, []⟩ (.start plan budget none) = (p, r)) (hd : r.demand = .nothing)
    (replied : answer e (p.sent.length - 1) = .reply reply) :
    ∀ error, (r.state.stage = .errored error ↔ RejectedReply reply error) ∧
      (r.state.stage = .errored error → ∃ o output body, Outcome.ofState? r.state = some o ∧
        CommandResult.ofOutcome o = .failure .invocationError output ∧
        (CommandResult.ofOutcome o).exitStatus.number? = some 5 ∧
        output.body = some body ∧ Evidence reply error body) := by
  intro error
  have undisturbed := play_undisturbed fuel (undisturbed_start e plan budget unaborted unplanned)
  rw [hp] at undisturbed
  have rejects := undisturbed.errored_iff hd replied error
  refine ⟨rejects, fun errored => ?_⟩
  obtain ⟨body, said, evidence⟩ := (rejects.1 errored).evidence
  have outcome : Outcome.ofState? r.state =
      some ⟨Outcome.summarise r.state, .invocationError error⟩ := by
    rw [Outcome.ofState?, Outcome.ending?, errored]
    rfl
  exact ⟨_, _, body, outcome, rfl, rfl, said, evidence⟩

/-- A response of a status that there is none: the body is its JSON text, every digit kept. -/
theorem unknown_status_reported :
    let reply : Reply := ⟨none, some (Utf8.encode
      "\x7b\"status\":\"DONE\",\"n\":12345678901234567890\x7d")⟩
    let c : Clock := .start none none
    let run := play (once reply) 2 ⟨c, []⟩ (.start bare .unbounded none)
    c.signal = none ∧ c.planned = none ∧ run.2.demand = .nothing ∧
      answer (once reply) (run.1.sent.length - 1) = .reply reply ∧
      ∃ error o output, RejectedReply reply error ∧ Outcome.ofState? run.2.state = some o ∧
        CommandResult.ofOutcome o = .failure .invocationError output ∧
        Evidence reply error
          "\x7b\n  \"status\": \"DONE\",\n  \"n\": 12345678901234567890\n\x7d" := by
  intro reply c run
  have hd : run.2.demand = .nothing := Demand.eq_nothing (by decide +kernel)
  have hlen : run.1.sent.length = 1 := by decide +kernel
  have replied : answer (once reply) (run.1.sent.length - 1) = .reply reply := by rw [hlen]; rfl
  have hbody : ((Outcome.ofState? run.2.state).bind fun o =>
      match CommandResult.ofOutcome o with
      | .failure _ output => output.body
      | .success _ => none) =
      some ("\x7b\n  \"status\": \"DONE\",\n  \"n\": 12345678901234567890\n\x7d" : Text) := by
    decide +kernel
  have hname : run.2.state.stage.name = "done_error" := by decide +kernel
  obtain ⟨error, errored⟩ : ∃ error, run.2.state.stage = .errored error := by
    cases hstage : run.2.state.stage with
    | errored error => exact ⟨error, rfl⟩
    | _ => rw [hstage] at hname; exact absurd hname (by simp only [Stage.name]; decide)
  obtain ⟨rejects, reports⟩ := rejected_reply_reported (once reply) bare .unbounded rfl rfl
    (Prod.eta run).symm hd replied error
  obtain ⟨o, output, body, ho, hresult, -, said, evidence⟩ := reports errored
  simp only [ho, Option.bind_some, hresult, said, Option.some.injEq] at hbody
  rw [hbody] at evidence
  exact ⟨rfl, rfl, hd, replied, error, o, output, rejects.1 errored, ho, hresult, evidence⟩

end Playback
end Lifecycle
