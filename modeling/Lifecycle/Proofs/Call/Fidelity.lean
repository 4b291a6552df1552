import Lifecycle.Call.Playback
import Lifecycle.Proofs.Call.Payload
import Lifecycle.Proofs.Event.Context
import Lifecycle.Proofs.Run.Steps

/- The callback context, from the text of a reply to the bytes of the next call.

   `Handed e n` says which datum call number `n` has to hand over: the empty object at
   first, later the context that is written in the reply to the call before. The
   invariant `Faithful` holds of the requests that were sent and of the one that a
   suspended run is about to send. It is kept by every demand that is served, so every
   payload of every run denotes the action, the token and the request body it began with
   and the context that was handed over (`context_fidelity`). -/
namespace Lifecycle.Playback

variable {e : Endpoint} {plan : Plan} {budget : Budget} {p p' : Playback} {r r' : Run}

/-- The context of call number `n`: an empty one at first, then the one in the reply to the call
    before, which was accepted as in progress. Every literal has its own number in it, unless the
    reply is inconsistent. -/
inductive Handed (e : Endpoint) : Nat → Datum → Prop where
  | first : Handed e 0 .empty
  | next {n : Nat} {reply : Reply} {d : Document} {event : InProgressEvent} {warnings : List Warning}
      (replied : answer e n = .reply reply) (written : Json.document? reply.text = some d)
      (accepted : Envelope.check d.toValue = .ok ⟨.inProgress event, warnings⟩) :
      Handed e (n + 1) (d.datum (Literal.kept d.isConsistent)).context

/-! ## One demand -/

theorem call_responded {target : Target} {request : Request} {response : Value}
    (h : (call e p target request).2 = .responded response) :
    ∃ reply d, answer e p.sent.length = .reply reply ∧ Json.document? reply.text = some d ∧
      response = d.toValue := by
  unfold call at h
  cases hs : p.clock.signal with
  | some reason =>
    rw [hs] at h
    cases h
  | none =>
    rw [hs] at h
    simp only [Exchange.begin] at h
    cases ha : answer e p.sent.length with
    | reply reply =>
      rw [ha] at h
      simp only [firstEvent, Exchange.settlement] at h
      cases hr : reply.response with
      | error error => rw [hr] at h; cases h
      | ok v =>
        rw [hr] at h
        obtain ⟨d, hd, hv⟩ := Reply.document?_of_response hr
        rw [CallResult.ofExcept, CallResult.responded.injEq] at h
        exact ⟨reply, d, rfl, hd, h ▸ hv⟩
    | refuse refusal =>
      rw [ha] at h
      simp only [firstEvent, Exchange.settlement, Refusal.result] at h
      split at h <;> cases h
    | silence =>
      rw [ha] at h
      simp only [firstEvent] at h
      cases hp : ((p.clock.set e.timeoutMs).pass e.timeoutMs).2 with
      | fired => rw [hp] at h; cases h
      | aborted reason => rw [hp] at h; cases h

theorem call_sent (target : Target) (request : Request) :
    (call e p target request).1.sent = p.sent ++ [(target, request)] ∨
      (call e p target request).1 = p ∧
        ∃ reason, (call e p target request).2 = .failed (.cancelledBy reason) := by
  unfold call
  cases p.clock.signal with
  | some reason => exact .inr ⟨rfl, reason, rfl⟩
  | none => exact .inl rfl

/-- Serving a demand sends at most the request that is due and resumes the run, after a call with
    the response in the endpoint's reply or with none. -/
inductive Served (e : Endpoint) (p : Playback) (r : Run) : Playback → Run → Prop where
  | call {p' : Playback} {result : CallResult} {signal : Signal}
      (sent : p'.sent = p.sent ++ [(r.target, r.state.request)]) (due : r.isSuspended = true)
      (gives : ∀ response, result = .responded response →
        ∃ reply d, answer e p.sent.length = .reply reply ∧ Json.document? reply.text = some d ∧
          response = d.toValue) :
      Served e p r p' (r.resumeCall result signal)
  | unsent {reason : AbortReason} {signal : Signal} :
      Served e p r p (r.resumeCall (.failed (.cancelledBy reason)) signal)
  | wait {p' : Playback} {error : Option CallError} {signal : Signal}
      (sent : p'.sent = p.sent) (due : r.isSuspended = true) :
      Served e p r p' (r.resumeWait error signal)

theorem served_of_serve (h : serve e p r = some (p', r')) : Served e p r p' r' := by
  unfold serve at h
  cases hd : r.demand with
  | call =>
    simp only [hd, Option.some.injEq, Prod.mk.injEq] at h
    obtain ⟨rfl, rfl⟩ := h
    obtain hsent | ⟨hp, reason, hreason⟩ := call_sent (e := e) (p := p) r.target r.state.request
    · exact .call hsent (by simp [Run.isSuspended, hd]) fun response => call_responded
    · rw [hp, hreason]
      exact .unsent
  | wait milliseconds =>
    have hdue : r.isSuspended = true := by simp [Run.isSuspended, hd]
    simp only [hd] at h
    split at h
    · cases h
      exact .wait rfl hdue
    · cases h
      exact .wait rfl hdue
    · cases h
  | nothing => simp [hd] at h
  | crashed fault => simp [hd] at h

/-! ## The invariant -/

/-- A request is that of the plan with the context that call number `n` has to hand over. -/
def Carries (e : Endpoint) (plan : Plan) (n : Nat) (q : Request) : Prop :=
  ∃ context : Value, q = plan.request.withCallbackContext context ∧ context.isJson = true ∧
    Handed e n (context.written.datum Literal.value)

/-- Every request that was sent has its context, and so has the next one of a suspended run. -/
structure Faithful (e : Endpoint) (plan : Plan) (p : Playback) (r : Run) : Prop where
  sent : ∀ n q, p.sent[n]? = some q → Carries e plan n q.2
  due : r.isSuspended = true → Carries e plan p.sent.length r.state.request

theorem faithful_start (e : Endpoint) (c : Clock) (budget : Budget) (signal : Signal)
    (hc : plan.request.callbackContext = .object []) :
    Faithful e plan ⟨c, []⟩ (.start plan budget signal) := by
  refine ⟨fun n q h => ?_, fun _ => ⟨.object [], ?_, rfl, .first⟩⟩
  · cases h
  · rw [Run.start_eq, Run.request_callNext, ← hc]
    rfl

theorem Carries.next {n : Nat} {q : Request} {reply : Reply} {d : Document}
    (h : Carries e plan n q) (replied : answer e n = .reply reply)
    (written : Json.document? reply.text = some d)
    (accepted : Envelope.check d.toValue =
      .ok ⟨.inProgress (Envelope.progressOf d.toValue), []⟩) :
    Carries e plan (n + 1) (q.withCallbackContext (Envelope.contextOf d.toValue)) := by
  obtain ⟨context, rfl, -, -⟩ := h
  obtain ⟨hjson, hdatum⟩ := Envelope.contextOf_datum accepted
  refine ⟨Envelope.contextOf d.toValue, rfl, hjson, ?_⟩
  rw [hdatum]
  exact .next replied written accepted

theorem Faithful.send {target : Target} (h : Faithful e plan p r) (due : r.isSuspended = true) :
    ∀ n q, (p.sent ++ [(target, r.state.request)])[n]? = some q → Carries e plan n q.2 := by
  intro n q hq
  by_cases hn : n < p.sent.length
  · rw [List.getElem?_append_left hn] at hq
    exact h.sent n q hq
  · rw [List.getElem?_append_right (Nat.le_of_not_lt hn)] at hq
    obtain ⟨hlast, hreq⟩ := List.getElem?_eq_some_iff.1 hq
    rw [List.length_singleton] at hlast
    obtain rfl : n = p.sent.length := by omega
    simp only [Nat.sub_self, List.getElem_cons_zero] at hreq
    rw [← hreq]
    exact h.due due

theorem Served.faithful (h : Faithful e plan p r) (hs : Served e p r p' r') :
    Faithful e plan p' r' := by
  cases hs with
  | call sent due gives =>
    refine ⟨by rw [sent]; exact h.send due, fun hsuspended => ?_⟩
    -- a run that goes on after a call has a response, whose context is that of the next call
    obtain ⟨response, hresult, accepted, hrequest⟩ := Run.suspended_resumeCall hsuspended
    obtain ⟨reply, d, replied, written, rfl⟩ := gives response hresult
    rw [hrequest, sent, List.length_append, List.length_singleton]
    exact (h.due due).next replied written accepted
  | unsent =>
    refine ⟨h.sent, ?_⟩
    intro hsuspended
    cases hsuspended
  | wait sent due =>
    refine ⟨by rw [sent]; exact h.sent, fun _ => ?_⟩
    rw [Run.request_resumeWait, sent]
    exact h.due due

/-! ## A whole run -/

theorem play_faithful (e : Endpoint) (c : Clock) (budget : Budget) (fuel : Nat)
    (hc : plan.request.callbackContext = .object []) :
    Faithful e plan (play e fuel ⟨c, []⟩ (.start plan budget c.signal)).1
      (play e fuel ⟨c, []⟩ (.start plan budget c.signal)).2 :=
  Run.drive_induction (fun _ _ _ _ h hs => (served_of_serve hs).faithful h) fuel
    (faithful_start e c budget c.signal hc)

theorem build_cases {target : Target} {tokens tokens' : TokenSource} {action : Action} {body : Value}
    (h : Plan.build target tokens action body = .ok (plan, tokens')) :
    body.isJson = true ∧ plan = ⟨target, ⟨action, body, .object [], tokens.next.1⟩⟩ := by
  obtain ⟨hbody, heq⟩ := Plan.build_eq_ok.1 h
  rw [Value.isJsonObject, Bool.and_eq_true] at hbody
  exact ⟨hbody.2, (Prod.mk.inj heq).1⟩

/-- **Every payload of a run is what the operation began with, and the context that was handed
    over.** Whatever the endpoint answers, the bytes of call number `n` are JSON text that denotes
    the action, the token and the request body of the operation, and a context: the empty object
    at first, later the one that is written in the text of the reply before. Its numbers are the
    written ones too, unless that reply is inconsistent. -/
theorem context_fidelity {target : Target} {tokens tokens' : TokenSource} {action : Action}
    {body : Value} (hb : Plan.build target tokens action body = .ok (plan, tokens')) (e : Endpoint)
    (c : Clock) (budget : Budget) (fuel n : Nat) (q : Target × Request)
    (hq : (play e fuel ⟨c, []⟩ (.start plan budget c.signal)).1.sent[n]? = some q) :
    ∃ sent context, Json.document? (Utf8.decode q.2.bytes) = some sent ∧
      sent.datum Literal.value =
        .payload action tokens.next.1 (body.written.datum Literal.value) context ∧
      Handed e n context := by
  obtain ⟨hbody, hplan⟩ := build_cases hb
  have hf := play_faithful e c budget fuel (show plan.request.callbackContext = .object [] by rw [hplan])
  obtain ⟨context, hrequest, hjson, handed⟩ := hf.sent n q hq
  have hparts : q.2 = ⟨action, body, context, tokens.next.1⟩ := by
    rw [hrequest, hplan]
    rfl
  have hq : q.2.IsJson := by
    rw [hparts]
    exact ⟨hbody, hjson⟩
  obtain ⟨sent, hsent, hdatum⟩ := Request.document?_bytes hq
  refine ⟨sent, context.written.datum Literal.value, hsent, ?_, handed⟩
  rw [hdatum, hparts]

/-! ## Two calls -/

/-- An endpoint that gives one reply, and then says that the operation has succeeded. -/
def once (reply : Reply) : Endpoint where
  timeoutMs := .ofNat 1000
  answers := [.reply reply, .reply ⟨none, some (Utf8.encode "\x7b\"status\":\"SUCCESS\"\x7d")⟩]

/-- The plan of an operation whose body has no members. -/
def bare : Plan := ⟨⟨"http://localhost", "handler"⟩, ⟨.create, .object [], .object [], "token-1"⟩⟩

/-- What the operation sends to an endpoint that gives one reply and is content. -/
def sentAfter (reply : Reply) : List (Target × Request) :=
  (play (once reply) 3 ⟨.start none none, []⟩ (.start bare .unbounded (Clock.start none none).signal)).1.sent

/-- A context that has a number no double holds, under the name of the archetype. -/
theorem large_number_handed :
    let reply : Reply := ⟨none, some (Utf8.encode
      "\x7b\"status\":\"IN_PROGRESS\",\"callbackContext\":\x7b\"__proto__\":12345678901234567890\x7d\x7d")⟩
    ∃ q, (sentAfter reply)[1]? = some q ∧ ∃ sent context,
      Json.document? (Utf8.decode q.2.bytes) = some sent ∧
      sent.datum Literal.value =
        .payload .create "token-1" ((Value.object []).written.datum Literal.value) context ∧
      Handed (once reply) 1 context := by
  intro reply
  have hlength : 1 < (sentAfter reply).length := by decide +kernel
  have hbuilt : Plan.build ⟨"http://localhost", "handler"⟩ ⟨fun _ => "token-1", 0⟩ .create (.object []) =
      .ok (bare, ⟨fun _ => "token-1", 1⟩) := rfl
  obtain ⟨q, hq⟩ : ∃ q, (sentAfter reply)[1]? = some q := ⟨_, List.getElem?_eq_getElem hlength⟩
  exact ⟨q, hq, context_fidelity hbuilt (once reply) (.start none none) .unbounded 3 1 q hq⟩

/-- The number under a name in the context of a text. -/
def contextNumber? (name t : Text) : Option ℚ :=
  (Json.document? t).bind fun d => ((d.datum Literal.value).context.member? name).bind Datum.number?

/-- A member that is repeated elsewhere in a reply, and makes it inconsistent, rounds the numbers of
    the context: 12345678901234567890 is handed over as 12345678901234567000. -/
theorem repeated_member_rounds :
    let reply : Reply := ⟨none, some (Utf8.encode
      "\x7b\"status\":\"IN_PROGRESS\",\"callbackContext\":\x7b\"n\":12345678901234567890\x7d,\"a\":1,\"a\":2\x7d")⟩
    ∃ q sent response event warnings,
      (sentAfter reply)[1]? = some q ∧
      Json.document? (Utf8.decode q.2.bytes) = some sent ∧
      Json.document? reply.text = some response ∧
      Envelope.check response.toValue = .ok ⟨.inProgress event, warnings⟩ ∧
      (sent.datum Literal.value).context ≠ (response.datum Literal.value).context := by
  intro reply
  have hwritten : contextNumber? "n" reply.text = some 12345678901234567890 := by decide +kernel
  have hsent : ((sentAfter reply)[1]?.bind fun q => contextNumber? "n" (Utf8.decode q.2.bytes)) =
      some 12345678901234567000 := by decide +kernel
  obtain ⟨q, hq, hnumber⟩ := Option.bind_eq_some_iff.1 hsent
  obtain ⟨sent, hdoc, hn⟩ := Option.bind_eq_some_iff.1 hnumber
  obtain ⟨response, hresponse, hm⟩ := Option.bind_eq_some_iff.1 hwritten
  have hfaithful := play_faithful (once reply) (.start none none) .unbounded 3
    (show bare.request.callbackContext = .object [] from rfl)
  obtain ⟨context, -, -, handed⟩ := hfaithful.sent 1 q hq
  generalize context.written.datum Literal.value = x at handed
  cases handed with
  | next replied written accepted =>
    obtain rfl := EndpointAnswer.reply.inj replied
    rw [hresponse] at written
    obtain rfl := Option.some.inj written
    refine ⟨q, sent, response, _, _, hq, hdoc, hresponse, accepted, fun heq => ?_⟩
    rw [heq, hm] at hn
    revert hn
    decide +kernel

end Lifecycle.Playback
