import Lifecycle.Command.Invoke
import Lifecycle.Proofs.Call.Payload
import Lifecycle.Proofs.Run.Ending

/- The exit status of the command that performs an operation.

   Whether the command is misused is decided by the file, the name of the action and the
   body alone (`Refused`), before anything is drawn or called. Otherwise the status tells
   how the run ended, and the output names the token of the run and the calls that the
   handler has seen (`Reports`). -/
namespace Lifecycle

namespace Action

theorem ofName?_name (action : Action) : ofName? action.name = some action := by
  cases action <;> rfl

theorem name_of_ofName? {t : Text} {action : Action} (h : ofName? t = some action) :
    action.name = t := by
  have found := List.find?_some h
  exact beq_iff_eq.1 found

end Action

namespace CommandResult

/-- A result whose status is a number, which is also what the process ends with. -/
def EndsWith (result : CommandResult) (number : Nat) : Prop :=
  result.exitStatus.number? = some number ∧
    result.exitStatus.processExit = if number = 0 then .success else .failure (some number)

def output? : CommandResult → Option Output
  | .success output => output
  | .failure _ output => some output

theorem endsWith_iff {result : CommandResult} {number : Nat} :
    result.EndsWith number ↔ result.exitStatus.number? = some number := by
  refine ⟨And.left, fun h => ⟨h, ?_⟩⟩
  cases hs : result.exitStatus with
  | unnumbered => rw [hs] at h; cases h
  | _ => rw [hs] at h; cases h; rfl

theorem EndsWith.unique {result : CommandResult} {m n : Nat} (hm : result.EndsWith m)
    (hn : result.EndsWith n) : m = n :=
  Option.some.inj (hm.1.symm.trans hn.1)

end CommandResult

namespace Command

/-! ## Refusals -/

/-- Why nothing can be begun: there is no such file, it cannot be read or is not JSON, its body is
    not an object of JSON data, or no action has the name. -/
inductive Refused (input : InvokeInput) : Option FileEntry → Prop where
  | missing : Refused input none
  | unreadable {error : Value} : Refused input (some (.unreadable error))
  | unparsed {t : Text} (h : Json.parse? t = none) : Refused input (some (.content t))
  | unknown {entry : Option FileEntry} (h : ∀ action : Action, input.action ≠ action.name) :
      Refused input entry
  | unfit {t : Text} {body : Value} (parsed : Json.parse? t = some body)
      (h : body.isJsonObject = false) : Refused input (some (.content t))

/-- What is begun for the body in a file, with a token. -/
structure Begins (input : InvokeInput) (entry : Option FileEntry) (token : Text) (plan : Plan) :
    Prop where
  file : ∃ t, entry = some (.content t) ∧ Json.parse? t = some plan.request.resourceRequest
  action : input.action = plan.request.action.name
  body : plan.request.resourceRequest.isJsonObject = true
  target : plan.target = input.target
  bearerToken : plan.request.bearerToken = token
  callbackContext : plan.request.callbackContext = .object []

theorem Begins.not_refused {input : InvokeInput} {entry : Option FileEntry} {token : Text}
    {plan : Plan} (h : Begins input entry token plan) : ¬ Refused input entry := by
  obtain ⟨t, rfl, parsed⟩ := h.file
  intro refused
  cases refused with
  | unparsed h' => rw [parsed] at h'; cases h'
  | unknown h' => exact h' _ h.action
  | unfit parsed' h' =>
    rw [parsed] at parsed'
    cases parsed'
    rw [h.body] at h'
    cases h'

/-- The command refuses before it touches anything, or it performs a run with a fresh token. -/
theorem invoke_cases (script : Script) (s : Operation.Surroundings) {input : InvokeInput}
    {entry : Option FileEntry} {file : LoadedFile} (loaded : LoadedFile.ofEntry entry = .ok file) :
    (Refused input entry ∧ ∃ output, invoke script s input file = (s, .result (.misuse output), none)) ∨
    ∃ plan session run, Begins input entry s.tokens.next.1 plan ∧
      Session.perform script s.session plan input.budget = (session, run) ∧
      invoke script s input file = (⟨session, s.tokens.next.2⟩,
        describeOperation input.path (Operation.resultOf run), some run) := by
  cases entry with
  | none =>
    cases loaded
    exact .inl ⟨.missing, _, rfl⟩
  | some entry =>
    cases entry with
    | unreadable error =>
      rw [LoadedFile.ofEntry] at loaded
      cases hm : error.errorMessage with
      | error => rw [hm] at loaded; cases loaded
      | ok message =>
        rw [hm] at loaded
        cases loaded
        refine .inl ⟨.unreadable, ?_⟩
        simp only [invoke, LoadedFile.failure?]
        split
        · exact ⟨_, rfl⟩
        · exact ⟨_, rfl⟩
    | content t =>
      rw [LoadedFile.ofEntry] at loaded
      cases parsed : Json.parse? t with
      | none =>
        rw [parsed] at loaded
        cases loaded
        exact .inl ⟨.unparsed parsed, _, rfl⟩
      | some body =>
        rw [parsed] at loaded
        cases loaded
        simp only [invoke, Operation.perform, Operation.plan, Action.parse]
        cases named : Action.ofName? input.action with
        | none =>
          refine .inl ⟨.unknown ?_, _, rfl⟩
          intro action h
          rw [h, Action.ofName?_name] at named
          cases named
        | some action =>
          dsimp only
          cases built : Plan.build input.target s.tokens action body with
          | error e =>
            refine .inl ⟨.unfit parsed ?_, _, rfl⟩
            rw [← Bool.not_eq_true]
            intro fit
            rw [Plan.build_eq_ok.2 ⟨fit, rfl⟩] at built
            cases built
          | ok planned =>
            obtain ⟨fit, rfl⟩ := Plan.build_eq_ok.1 built
            refine .inr ⟨_, _, _, ?_, rfl, rfl⟩
            exact ⟨⟨t, rfl, parsed⟩, (Action.name_of_ofName? named).symm, fit, rfl, rfl, rfl⟩

/-! ## Reports -/

/-- The number of the status with which a run is reported that has ended in a stage. -/
def exitNumber? : Stage → Option Nat
  | .succeeded _ => some 0
  | .failed _ => some 3
  | .exhausted _ => some 4
  | .errored _ => some 5
  | _ => none

theorem ofOutcome_number? {state : RunState} {o : Outcome} (h : Outcome.ofState? state = some o) :
    (CommandResult.ofOutcome o).exitStatus.number? = exitNumber? state.stage := by
  obtain ⟨ending, he, rfl⟩ := Option.map_eq_some_iff.1 h
  rw [Outcome.ending?] at he
  cases hs : state.stage <;> rw [hs] at he <;> cases he <;> rfl

/-- Whatever a result says of a run, it begins with the line on its calls and its token. -/
theorem ofOutcome_line (o : Outcome) : ∃ output more,
    (CommandResult.ofOutcome o).output? = some output ∧
      output.details = some (o.summary.line :: more) := by
  obtain ⟨summary, ending⟩ := o
  cases ending with
  | succeeded => exact ⟨_, _, rfl, rfl⟩
  | handlerFailed => exact ⟨_, _, rfl, rfl⟩
  | budgetExhausted => exact ⟨_, _, rfl, rfl⟩
  | invocationError => exact ⟨_, _, rfl, rfl⟩

/-- What the result of a run tells, which began with a token in the first of two sessions and ended in
    the second. -/
structure Reports (script : Script) (budget : Budget) (token : Text) (origin s : Session) (r : Run)
    (result : CommandResult) : Prop where
  number : ∃ n ∈ [0, 3, 4, 5], result.EndsWith n
  succeeded : result.EndsWith 0 ↔ ∃ e, Session.LastEvent script origin s (.success e)
  handlerFailed : result.EndsWith 3 ↔ ∃ e, Session.LastEvent script origin s (.failed e)
  budgetExhausted : result.EndsWith 4 ↔ (∃ e, Session.LastEvent script origin s (.inProgress e)) ∧
    s.signal = none ∧ budget.allows (.tally (s.calls.length - origin.calls.length + 1)) = false
  invocationError : result.EndsWith 5 ↔ ∃ error, r.state.stage = .errored error
  errored : ∀ error, r.state.stage = .errored error ↔ Session.Faulted script origin s error
  bearerToken : r.state.request.bearerToken = token
  line : ∃ output more, result.output? = some output ∧ output.details = some
    ((counted (Double.tally (s.calls.length - origin.calls.length)).toText
      (s.calls.length - origin.calls.length = 1) "invocation" ++ ", bearer token " ++ token) :: more)
  spelled : s.calls.length - origin.calls.length < 2 ^ 53 →
    (Double.tally (s.calls.length - origin.calls.length)).toText =
      Text.ofNat (s.calls.length - origin.calls.length)

theorem reports_of_concluded {script : Script} {origin s : Session} {plan : Plan} {budget : Budget}
    {r : Run} {last : Option CallResult} {o : Outcome}
    (tracked : Session.Tracked script origin plan budget s r)
    (hlast : Session.LastResult script origin s last)
    (issued : r.state.invocationsIssued = .tally (s.calls.length - origin.calls.length))
    (concluded : Concluded budget (s.calls.length - origin.calls.length) s.signal last
      r.state.stage) (ho : Outcome.ofState? r.state = some o) :
    Reports script budget plan.request.bearerToken origin s r (.ofOutcome o) := by
  have ends : ∀ n, (CommandResult.ofOutcome o).EndsWith n ↔ exitNumber? r.state.stage = some n := by
    intro n
    rw [CommandResult.endsWith_iff, ofOutcome_number? ho]
  have token : r.state.request.bearerToken = plan.request.bearerToken := by
    obtain ⟨context, hq⟩ := tracked.request
    rw [hq]
    rfl
  refine ⟨?_, ?_, ?_, ?_, ?_, fun error => Session.errored_iff hlast concluded, token, ?_,
    Double.toText_tally⟩
  · obtain ⟨ending, he, -⟩ := Option.map_eq_some_iff.1 ho
    rw [Outcome.ending?] at he
    simp only [ends]
    cases hs : r.state.stage <;> rw [hs] at he <;> cases he <;> simp [exitNumber?]
  · rw [ends]
    simp only [← Session.succeeded_iff hlast concluded]
    cases r.state.stage <;> simp [exitNumber?]
  · rw [ends]
    simp only [← Session.failed_iff hlast concluded]
    cases r.state.stage <;> simp [exitNumber?]
  · rw [ends, ← exists_and_right]
    simp only [← Session.exhausted_iff hlast concluded]
    cases r.state.stage <;> simp [exitNumber?]
  · rw [ends]
    cases r.state.stage <;> simp [exitNumber?]
  · obtain ⟨output, more, said, line⟩ := ofOutcome_line o
    refine ⟨output, more, said, ?_⟩
    rw [line]
    obtain ⟨ending, -, rfl⟩ := Option.map_eq_some_iff.1 ho
    have invocations : (Outcome.summarise r.state).invocations = .tally (s.calls.length - origin.calls.length) :=
      issued
    rw [RunSummary.line, ← token, invocations, Double.tally_same_one]
    rfl

theorem resultOf_over {r : Run} {o : Outcome} (demand : r.demand = .nothing)
    (ho : Outcome.ofState? r.state = some o) : Operation.resultOf r = .finished o := by
  rw [Operation.resultOf, demand, ho]

theorem resultOf_underway {r : Run} (intact : ∀ fault, r.demand ≠ .crashed fault)
    (ongoing : r.state.isTerminal = false) : Operation.resultOf r = .unfinished := by
  have unreported : Outcome.ofState? r.state = none := by
    rw [RunState.isTerminal] at ongoing
    rw [Outcome.ofState?, Outcome.ending?]
    cases hs : r.state.stage <;> rw [hs] at ongoing <;> first | rfl | cases ongoing
  rw [Operation.resultOf, unreported]
  cases hd : r.demand with
  | crashed fault => exact absurd hd (intact fault)
  | _ => rfl

/-- **The status of a command tells what became of it.** With a handler that throws nothing, whatever
    the file, the action, the budget, the answers and the abort are, the command ends with status 2
    exactly when it is refused, and then nothing is drawn, called or waited for. Otherwise it performs
    a run with a fresh token, which goes on for good or is reported as it ended. -/
theorem invoke_status {script : Script} {files : Files} {input : InvokeInput} {file : LoadedFile}
    {s s' : Operation.Surroundings} {outcome : InvokeResult} {run : Option Run}
    (prompt : ∀ n message, script.answer n ≠ .crash message)
    (loaded : LoadedFile.load files input.path = .ok file)
    (invoked : invoke script s input file = (s', outcome, run)) :
    (∀ result, outcome = .result result →
      (result.EndsWith 2 ↔ Refused input (Member.find? input.path files))) ∧
    (Refused input (Member.find? input.path files) →
      (∃ result, outcome = .result result) ∧ s' = s ∧ run = none) ∧
    (¬ Refused input (Member.find? input.path files) → ∃ plan r,
      Begins input (Member.find? input.path files) s.tokens.next.1 plan ∧ run = some r ∧
      s'.tokens = s.tokens.next.2 ∧ Session.CallsOwn plan s.session s'.session ∧
      ((outcome = .unfinished ∧ ∀ fuel,
          (Session.play script fuel s.session (.start plan input.budget s.session.signal)).2.demand ≠
            .nothing) ∨
        ∃ result, outcome = .result result ∧ r.demand = .nothing ∧
          Reports script input.budget s.tokens.next.1 s.session s'.session r result)) := by
  obtain ⟨refused, output, hi⟩ | ⟨plan, session, r, begins, performed, hi⟩ :=
    invoke_cases script s loaded
  · rw [hi] at invoked
    cases invoked
    refine ⟨?_, fun _ => ⟨⟨_, rfl⟩, rfl, rfl⟩, fun h => absurd refused h⟩
    rintro result ⟨⟩
    exact ⟨fun _ => refused, fun _ => ⟨rfl, rfl⟩⟩
  · rw [hi] at invoked
    cases invoked
    have tracked := Session.play_tracked script plan input.budget s.session
      (Session.demands script input.budget)
    rw [← Session.perform, performed] at tracked
    have token : plan.request.bearerToken = s.tokens.next.1 := begins.bearerToken
    obtain ⟨demand, last, hlast, issued, concluded⟩ | ⟨underway, intact, ongoing⟩ :=
      tracked.over_or_underway prompt
    · have terminal : r.state.isTerminal = true := concluded.terminal
      obtain ⟨o, ho, -⟩ := Session.outcome_of_terminal terminal
      have houtcome : Operation.resultOf r = .finished o := resultOf_over demand ho
      have reports := reports_of_concluded tracked hlast issued concluded ho
      rw [token] at reports
      rw [houtcome]
      refine ⟨?_, fun refused => absurd refused begins.not_refused, fun _ =>
        ⟨plan, r, begins, rfl, rfl, tracked.calls, .inr ⟨_, rfl, demand, reports⟩⟩⟩
      rintro result ⟨⟩
      obtain ⟨n, hn, ends⟩ := reports.number
      refine ⟨fun h => ?_, fun refused => absurd refused begins.not_refused⟩
      rw [ends.unique h] at hn
      simp at hn
    · have houtcome : Operation.resultOf r = .unfinished := resultOf_underway intact ongoing
      rw [houtcome]
      refine ⟨?_, fun refused => absurd refused begins.not_refused, fun _ =>
        ⟨plan, r, begins, rfl, rfl, tracked.calls, .inl ⟨rfl, ?_⟩⟩⟩
      · rintro result ⟨⟩
      -- a run that is over at any time is over when it has been performed, and this one is not
      intro fuel hover
      have settled := Session.perform_settles hover
      rw [performed] at settled
      rw [← settled] at hover
      exact underway hover

/-- A handler that is in progress under a bound of zero: one call, and status 4. -/
theorem single_call_exhausts :
    let script : Script := ⟨[.respond (.object [("status", .text "IN_PROGRESS")])], none⟩
    let files : Files := [("body.json", .content "\x7b\x7d")]
    let input : InvokeInput :=
      ⟨"CREATE", "body.json", ⟨"http://localhost", "handler"⟩, .bounded .zero⟩
    let file : LoadedFile := .loaded (.object [])
    (∀ n message, script.answer n ≠ .crash message) ∧
      LoadedFile.load files input.path = .ok file ∧
      ∃ s' result run, invoke script (.begin script) input file = (s', .result result, run) ∧
        result.EndsWith 4 ∧ ¬ result.EndsWith 2 ∧
        ∃ output more, result.output? = some output ∧
          output.details = some (("1 invocation, bearer token token-1" : Text) :: more) := by
  intro script files input file
  have ha : ∀ n, script.answer n = .respond (.object [("status", .text "IN_PROGRESS")]) := by
    intro n
    cases n <;> rfl
  have prompt : ∀ n message, script.answer n ≠ .crash message := by
    intro n message h
    rw [ha n] at h
    cases h
  have loaded : LoadedFile.load files input.path = .ok file := rfl
  have begins : Begins input (Member.find? input.path files) "token-1"
      ⟨input.target, ⟨.create, .object [], .object [], "token-1"⟩⟩ :=
    ⟨⟨_, rfl, rfl⟩, rfl, rfl, rfl, rfl, rfl⟩
  have hcalls : (invoke script (.begin script) input file).1.session.calls.length = 1 := by
    decide +kernel
  have hsignal : (invoke script (.begin script) input file).1.session.signal = none := by
    decide +kernel
  have hended : (match (invoke script (.begin script) input file).2.1 with
      | .result _ => true
      | _ => false) = true := by decide +kernel
  obtain ⟨s', outcome, run, hi⟩ : ∃ s' outcome run,
      invoke script (.begin script) input file = (s', outcome, run) := ⟨_, _, _, rfl⟩
  rw [hi] at hcalls hsignal hended
  obtain ⟨misused, -, performed⟩ := invoke_status prompt loaded hi
  obtain ⟨plan, r, -, -, -, -, ⟨rfl, -⟩ | ⟨result, rfl, -, reports⟩⟩ :=
    performed begins.not_refused
  · cases hended
  · have suppressed : input.budget.allows (.tally (1 - 0 + 1)) = false := by decide +kernel
    refine ⟨prompt, loaded, s', result, run, hi, ?_, ?_, ?_⟩
    · refine reports.budgetExhausted.2 ⟨⟨_, ?_, _, _, ha _, rfl⟩, hsignal, ?_⟩
      · show 0 < s'.session.calls.length
        rw [hcalls]
        exact Nat.one_pos
      · rw [hcalls]
        exact suppressed
    · rw [misused result rfl]
      exact begins.not_refused
    · obtain ⟨output, more, said, line⟩ := reports.line
      refine ⟨output, more, said, ?_⟩
      rw [hcalls] at line
      exact line.trans (congrArg (fun text => some (text :: more)) (by decide +kernel))

end Command
end Lifecycle
