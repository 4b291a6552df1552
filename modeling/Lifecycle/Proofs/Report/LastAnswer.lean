import Lifecycle.Proofs.Event.Contract
import Lifecycle.Proofs.Run.Ending
import Lifecycle.Report.OfOutcome

/- What an outcome depends on.

   A run collects warnings, events and contexts on its way, but a response in progress has
   no warnings, so at the end there are only those of the last answer (`play_warned`). That
   answer also settles how the run ends, if it is not in progress. The outcome of a run is
   therefore a matter of its last answer and of the number of calls before it, and so is what
   the command line says about it. -/
namespace Lifecycle

/-! ## Warnings on the way -/

/-- The warnings of what a call came to: those of an accepted response. -/
def CallResult.warnings : CallResult → List Warning
  | .responded response =>
    match Envelope.check response with
    | .ok report => report.warnings
    | .error _ => []
  | .failed _ => []
  | .crashed _ => []

/-- The warnings of the last answer, if there was one. -/
def warningsOf (last : Option CallResult) : List Warning := (last.map CallResult.warnings).getD []

theorem CallResult.Continues.warnings {result : CallResult} {response : Value}
    (h : result.Continues response) : result.warnings = [] := by
  rw [h.responded]
  simp [CallResult.warnings, h.accepted]

namespace Run

variable {r : Run} {signal : Signal}

theorem warnings_callNext : (r.callNext signal).state.warnings = r.state.warnings := by
  cases signal with
  | some reason => rfl
  | none =>
    unfold callNext
    cases hs : r.state.begin with
    | error e => rfl
    | ok s =>
      have kept : s.warnings = r.state.warnings := by
        obtain ⟨-, rfl⟩ | ⟨-, e, -, rfl⟩ := RunState.begin_cases (RunState.ready_of_begin hs) hs
        · rfl
        · rfl
      simp only
      split <;> exact kept

theorem warnings_proceed : (r.proceed signal).state.warnings = r.state.warnings := by
  unfold proceed
  split
  · split
    · rfl
    · exact warnings_callNext
  · exact warnings_callNext
  · rfl

theorem warnings_resumeWait (error : Option CallError) :
    (r.resumeWait error signal).state.warnings = r.state.warnings := by
  cases error with
  | some e => rfl
  | none => exact warnings_callNext

theorem warnings_apply (s : RunState) (report : Report) :
    (s.apply report).warnings = s.warnings ++ report.warnings := by
  obtain ⟨event, ws⟩ := report
  cases event <;> rfl

theorem warnings_resumeCall (result : CallResult) :
    (r.resumeCall result signal).state.warnings = r.state.warnings ++ result.warnings := by
  cases result with
  | crashed fault => exact (List.append_nil _).symm
  | failed e => exact (List.append_nil _).symm
  | responded response =>
    cases hc : Envelope.check response with
    | error e =>
      rw [resumeCall_rejected hc]
      simp only [CallResult.warnings, hc, List.append_nil]
      rfl
    | ok report =>
      rw [resumeCall_accepted hc, warnings_proceed]
      simp only [CallResult.warnings, hc]
      exact warnings_apply r.state report

end Run

/-! ## What the last answer leaves -/

theorem Answer.Gives.later {a : Answer} {signal signal' : Signal} {result : CallResult}
    (h : a.Gives signal result) (since : ∀ reason, signal = some reason → signal' = some reason) :
    a.Gives signal' result := by
  cases h with
  | responded => exact .responded
  | failed => exact .failed
  | crashed => exact .crashed
  | abandoned =>
    rw [since _ rfl]
    exact .abandoned

namespace Session

variable {script : Script} {plan : Plan} {budget : Budget} {origin s s' : Session} {r r' : Run}
  {last last' : Option CallResult}

theorem LastResult.unique (h : LastResult script origin s last) (h' : LastResult script origin s last') :
    last = last' := by
  cases h' with
  | uncalled calls =>
    cases h with
    | uncalled => rfl
    | called made => omega
  | called made gives since => exact h.of_answer made rfl (gives.later since)

/-- A run and what its last call came to, whose warnings are all that the run has collected. -/
structure Warned (script : Script) (origin : Session) (plan : Plan) (budget : Budget) (s : Session)
    (r : Run) : Prop where
  tracked : Tracked script origin plan budget s r
  warnings : ∃ last, LastResult script origin s last ∧ r.state.warnings = warningsOf last

theorem warned_start (script : Script) (plan : Plan) (budget : Budget) (origin : Session) :
    Warned script origin plan budget origin (.start plan budget origin.signal) := by
  refine ⟨tracked_start script plan budget origin, none, .uncalled rfl, ?_⟩
  rw [Run.start_eq, Run.warnings_callNext]
  rfl

theorem Served.warned (h : Warned script origin plan budget s r) (hs : Served script s r s' r') :
    Warned script origin plan budget s' r' := by
  obtain ⟨tracked, last, hlast, kept⟩ := h
  refine ⟨hs.tracked tracked, ?_⟩
  cases hs with
  | @call signal result demand _ gives =>
    refine ⟨some result, LastResult.of_call tracked.calls.length_le gives _, ?_⟩
    -- a run that calls again has come to nothing yet but responses in progress
    have silent : r.state.warnings = [] := by
      obtain ⟨last', hlast', poised⟩ := tracked.poised
      obtain ⟨-, -, -, continued⟩ := poised.of_call demand
      rw [kept, hlast.unique hlast']
      cases last' with
      | none => rfl
      | some earlier =>
        obtain ⟨response, continues⟩ := continued earlier rfl
        exact continues.warnings
    rw [Run.warnings_resumeCall, silent]
    rfl
  | @wait signal ms demand left =>
    subst left
    refine ⟨last, hlast.of_calls rfl ?_, ?_⟩
    · intro reason hs
      rw [hs]
      rfl
    · rw [Run.warnings_resumeWait]
      exact kept

/-- **The warnings of a run are those of its last answer**, however many came before it. -/
theorem play_warned (script : Script) (plan : Plan) (budget : Budget) (origin : Session)
    (fuel : Nat) :
    Warned script origin plan budget
      (play script fuel origin (.start plan budget origin.signal)).1
      (play script fuel origin (.start plan budget origin.signal)).2 :=
  play_induction (fun _ _ _ _ h hs => hs.warned h) fuel (warned_start script plan budget origin)

end Session

/-! ## Outcomes told by the last answer -/

/-- A run that is over, whatever script, budget and earlier calls have brought it there, and what its
    last call came to. -/
def Run.EndsWith (plan : Plan) (last : Option CallResult) (r : Run) : Prop :=
  ∃ script origin budget fuel s,
    Session.play script fuel origin (.start plan budget origin.signal) = (s, r) ∧
      r.demand = .nothing ∧ Session.LastResult script origin s last

namespace Outcome

variable {plan : Plan} {last : Option CallResult} {r : Run} {o : Outcome}

/-- What an outcome tells of the last answer: its warnings, no others, and what it says about success
    or failure, unchanged. -/
structure Tells (plan : Plan) (last : Option CallResult) (o : Outcome) : Prop where
  action : o.summary.action = plan.request.action
  bearerToken : o.summary.bearerToken = plan.request.bearerToken
  warnings : o.summary.warnings = warningsOf last
  succeeded : ∀ details, o.ending = .succeeded details → ∃ response,
    last = some (.responded response) ∧ Envelope.Holds response (.success ⟨details⟩)
  handlerFailed : ∀ code message, o.ending = .handlerFailed code message → ∃ response,
    last = some (.responded response) ∧ response.get "errorCode" = .text code ∧
      message.map Value.text = (response.get "message").present?

def withInvocations (o : Outcome) (n : Double) : Outcome :=
  { o with summary := { o.summary with invocations := n } }

theorem ending?_eq_succeeded {t : RunState} {d : Details} (h : ending? t = some (.succeeded d)) :
    t.stage = .succeeded ⟨d⟩ := by
  unfold ending? at h
  split at h <;> cases h
  assumption

theorem ending?_eq_handlerFailed {t : RunState} {code : Text} {message : Option Text}
    (h : ending? t = some (.handlerFailed code message)) :
    ∃ d, t.stage = .failed ⟨d, code⟩ ∧ d.message = message := by
  unfold ending? at h
  split at h <;> cases h
  exact ⟨_, by assumption, rfl⟩

/-- Apart from a budget that was used up, an ending is a matter of the stage alone. -/
theorem ending?_congr {t t' : RunState} (h : t.stage = t'.stage)
    (hn : ∀ e, t.stage ≠ .exhausted e) : ending? t = ending? t' := by
  unfold ending?
  rw [← h]
  cases hs : t.stage with
  | exhausted e => exact absurd hs (hn e)
  | _ => rfl

end Outcome

namespace Run

variable {plan plan' : Plan} {last : Option CallResult} {r r' : Run} {result : CallResult} {stage : Stage}

/-- What the last answer leaves of a run that is over. -/
structure LeftBy (plan : Plan) (last : Option CallResult) (r : Run) : Prop where
  action : r.state.request.action = plan.request.action
  bearerToken : r.state.request.bearerToken = plan.request.bearerToken
  warnings : r.state.warnings = warningsOf last
  concluded : ∃ budget made signal, Concluded budget made signal last r.state.stage

theorem EndsWith.leftBy (h : r.EndsWith plan last) : r.LeftBy plan last := by
  obtain ⟨script, origin, budget, fuel, s, played, idle, hlast⟩ := h
  obtain ⟨tracked, last', hlast', warnings⟩ := Session.play_warned script plan budget origin fuel
  rw [played] at tracked hlast' warnings
  obtain ⟨context, request⟩ := tracked.request
  refine ⟨by rw [request]; rfl, by rw [request]; rfl, by rw [warnings, hlast'.unique hlast], ?_⟩
  obtain ⟨last'', hlast'', poised⟩ := tracked.poised
  rw [hlast''.unique hlast] at poised
  exact ⟨_, _, _, (poised.of_nothing idle).2⟩

/-- A run that is over when it has been performed ends with the answer to its last call. -/
theorem endsWith_perform {script : Script} {budget : Budget} {n : Nat} {response : Value}
    (idle : (Session.perform script (.begin script) plan budget).2.demand.isNothing = true)
    (calls : (Session.perform script (.begin script) plan budget).1.calls.length = n + 1)
    (answer : script.answer n = .respond response) :
    (Session.perform script (.begin script) plan budget).2.EndsWith plan (some (.responded response)) := by
  obtain ⟨s, r, performed⟩ : ∃ s r, Session.perform script (.begin script) plan budget = (s, r) :=
    ⟨_, _, (Prod.eta _).symm⟩
  rw [performed] at idle calls ⊢
  have last : Session.LastResult script (.begin script) s (some (.responded response)) := by
    have given : (script.answer (s.calls.length - 1)).Gives none (.responded response) := by
      rw [calls, Nat.add_sub_cancel, answer]
      exact .responded
    refine .called ?_ given nofun
    rw [calls]
    exact Nat.zero_lt_succ n
  exact ⟨script, .begin script, budget, _, s, performed, Demand.eq_nothing idle, last⟩

theorem LeftBy.stage_eq (h : r.LeftBy plan (some result)) (hd : result.Decides stage) :
    r.state.stage = stage := by
  obtain ⟨_, _, _, concluded⟩ := h.concluded
  exact concluded.of_decides hd

theorem LeftBy.outcome (h : r.LeftBy plan last) :
    ∃ ending, Outcome.ofState? r.state = some ⟨Outcome.summarise r.state, ending⟩ ∧
      Outcome.ending? r.state = some ending := by
  obtain ⟨_, _, _, concluded⟩ := h.concluded
  obtain ⟨o, ho, -⟩ := Session.outcome_of_terminal concluded.terminal
  obtain ⟨ending, he, rfl⟩ := Option.map_eq_some_iff.1 ho
  exact ⟨ending, ho, he⟩

theorem LeftBy.tells (h : r.LeftBy plan last) {ending : Ending}
    (he : Outcome.ending? r.state = some ending) :
    Outcome.Tells plan last ⟨Outcome.summarise r.state, ending⟩ := by
  obtain ⟨budget, made, signal, concluded⟩ := h.concluded
  refine ⟨h.action, h.bearerToken, h.warnings, ?_, ?_⟩
  · rintro details rfl
    rw [Outcome.ending?_eq_succeeded he] at concluded
    cases concluded with
    | decided hd =>
      cases hd with
      | succeeded hc => exact ⟨_, rfl, (Envelope.accepted_of_check hc).2⟩
  · rintro code message rfl
    obtain ⟨details, hs, hmessage⟩ := Outcome.ending?_eq_handlerFailed he
    rw [hs] at concluded
    cases concluded with
    | decided hd =>
      cases hd with
      | handlerFailed hc =>
        have holds := (Envelope.accepted_of_check hc).2
        refine ⟨_, rfl, holds.special.1, ?_⟩
        rw [← hmessage]
        exact holds.message

theorem LeftBy.outcome_eq (h : r.LeftBy plan (some result)) (h' : r'.LeftBy plan' (some result))
    (hd : result.Decides stage) (action : plan'.request.action = plan.request.action)
    (bearerToken : plan'.request.bearerToken = plan.request.bearerToken) {ending ending' : Ending}
    (he : Outcome.ending? r.state = some ending) (he' : Outcome.ending? r'.state = some ending') :
    (⟨Outcome.summarise r'.state, ending'⟩ : Outcome) =
      Outcome.withInvocations ⟨Outcome.summarise r.state, ending⟩ r'.state.invocationsIssued := by
  have same : ending = ending' := by
    -- no answer uses up a budget by itself, so the stage alone says how both runs have ended
    have congr : Outcome.ending? r.state = Outcome.ending? r'.state := by
      apply Outcome.ending?_congr
      · rw [h.stage_eq hd, h'.stage_eq hd]
      · intro e hs
        rw [h.stage_eq hd] at hs
        subst hs
        cases hd
    rw [he, he'] at congr
    exact Option.some.inj congr
  simp only [Outcome.withInvocations, Outcome.summarise, same, h.action, h'.action, h.bearerToken,
    h'.bearerToken, h.warnings, h'.warnings, action, bearerToken]

end Run

/-! ## What the command line says -/

namespace CommandResult

/-- A result whose first line of details is another one. -/
def headed (line : Text) : CommandResult → CommandResult
  | .success output => .success (output.map fun out => { out with
      details := out.details.map fun lines => line :: lines.tail })
  | .failure exit out => .failure exit { out with
      details := out.details.map fun lines => line :: lines.tail }

theorem ofOutcome_withInvocations (o : Outcome) (n : Double) :
    ofOutcome (o.withInvocations n) = (ofOutcome o).headed (o.withInvocations n).summary.line := by
  obtain ⟨summary, ending⟩ := o
  cases ending <;> rfl

end CommandResult

namespace Outcome

/-- **The outcome of a run depends on its last answer alone**, apart from the number of calls. Whatever
    came before, its warnings are those of the last answer and what it tells is what that holds; and two
    runs of the same action and token that end with the same answer, unless it is in progress, have the
    same outcome and are reported in the same words, but for that number. -/
theorem outcome_of_last_answer {plan plan' : Plan} {last last' : Option CallResult} {r r' : Run}
    (h : r.EndsWith plan last) (h' : r'.EndsWith plan' last') :
    ∃ o o', ofState? r.state = some o ∧ ofState? r'.state = some o' ∧ Tells plan last o ∧
      Tells plan' last' o' ∧
      ∀ result stage, last = some result → last' = some result → result.Decides stage →
        plan'.request.action = plan.request.action →
        plan'.request.bearerToken = plan.request.bearerToken →
        o' = o.withInvocations o'.summary.invocations ∧
          CommandResult.ofOutcome o' = (CommandResult.ofOutcome o).headed o'.summary.line := by
  have left := h.leftBy
  have left' := h'.leftBy
  obtain ⟨ending, ho, he⟩ := left.outcome
  obtain ⟨ending', ho', he'⟩ := left'.outcome
  refine ⟨_, _, ho, ho', left.tells he, left'.tells he', ?_⟩
  rintro result stage rfl rfl hd action bearerToken
  have same := left.outcome_eq left' hd action bearerToken he he'
  refine ⟨same, ?_⟩
  rw [same]
  exact CommandResult.ofOutcome_withInvocations _ _

/-- One run fails at once, the other after two responses in progress; both are told the same. -/
theorem later_failure_told_alike :
    let failure : Value := .object [("status", .text "FAILED"), ("errorCode", .text "Kaboom"),
      ("message", .text "no"), ("callbackContext", .object [])]
    let waiting : Answer := .respond (.object [("status", .text "IN_PROGRESS"), ("message", .text "soon"),
      ("callbackDelaySeconds", .number (.ofNat 1))])
    let plan : Plan :=
      ⟨⟨"http://localhost", "handler"⟩, ⟨.create, .object [], .object [], "token-1"⟩⟩
    let plan' : Plan :=
      ⟨⟨"http://localhost", "other"⟩, ⟨.create, .object [("id", .null)], .object [], "token-1"⟩⟩
    let script : Script := ⟨[.respond failure], none⟩
    let script' : Script := ⟨[waiting, waiting, .respond failure], none⟩
    let r := (Session.perform script (.begin script) plan .unbounded).2
    let r' := (Session.perform script' (.begin script') plan' (.bounded (.ofNat 5))).2
    r.EndsWith plan (some (.responded failure)) ∧ r'.EndsWith plan' (some (.responded failure)) ∧
      ∃ o o', ofState? r.state = some o ∧ ofState? r'.state = some o' ∧
        o.summary.warnings = [.unknownCode "Kaboom", .callbackContext .failed] ∧
        o' = o.withInvocations (.ofNat 3) ∧ CommandResult.ofOutcome o' =
          (CommandResult.ofOutcome o).headed "3 invocations, bearer token token-1" := by
  intro failure waiting plan plan' script script' r r'
  have ends : r.EndsWith plan (some (.responded failure)) :=
    Run.endsWith_perform (n := 0) (by decide +kernel) (by decide +kernel) rfl
  have ends' : r'.EndsWith plan' (some (.responded failure)) :=
    Run.endsWith_perform (n := 2) (by decide +kernel) (by decide +kernel) rfl
  refine ⟨ends, ends', ?_⟩
  obtain ⟨o, o', ho, ho', tells, tells', alike⟩ := outcome_of_last_answer ends ends'
  obtain ⟨same, told⟩ := alike (.responded failure) _ rfl rfl (.handlerFailed rfl) rfl rfl
  have three : (ofState? r'.state).map (fun o => o.summary.invocations) = some (.ofNat 3) := by decide +kernel
  rw [ho'] at three
  have count : o'.summary.invocations = .ofNat 3 := Option.some.inj three
  rw [count] at same
  refine ⟨o, o', ho, ho', tells.warnings, same, ?_⟩
  have text : (Double.ofNat 3).toText = "3" := by decide +kernel
  have several : (Double.ofNat 3).same .one = false := by decide +kernel
  rw [told, RunSummary.line, count, text, several, tells'.bearerToken]
  rfl

end Outcome

end Lifecycle
