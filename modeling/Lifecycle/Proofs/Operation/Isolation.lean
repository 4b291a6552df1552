import Lifecycle.Operation
import Lifecycle.Proofs.Command.ExitStatus

/- Operations one after the other, with one handler and one token source.

   An operation is begun exactly if its action has a name of the five and its body is an
   object of JSON data. What is said of a single operation (`perform_isolated`): one that is
   not begun leaves its surroundings as they are, and one that is draws one token and calls
   the handler with its own target, action, body and token. A sequence of any length follows
   by induction: those that are not begun may be left out without a trace, and no token is
   seen in the calls of two operations (`operations_isolated`). -/
namespace Lifecycle

structure OperationInput.IsAcceptable (input : OperationInput) : Prop where
  named : ∃ action : Action, input.action = action.name
  object : input.body.isObject = true
  data : input.body.JsonData

namespace Operation

variable {script : Script} {s : Surroundings} {input : OperationInput} {p : Passage}

/-! ## What is begun -/

theorem isAcceptable_iff : input.IsAcceptable ↔
    (Action.ofName? input.action).isSome = true ∧ input.body.isJsonObject = true := by
  rw [Value.isJsonObject, Bool.and_eq_true, Value.isJson_iff]
  constructor
  · rintro ⟨⟨action, h⟩, object, data⟩
    rw [h, Action.ofName?_name]
    exact ⟨rfl, object, data⟩
  · rintro ⟨h, object, data⟩
    obtain ⟨action, named⟩ := Option.isSome_iff_exists.1 h
    exact ⟨⟨action, (Action.name_of_ofName? named).symm⟩, object, data⟩

instance : DecidablePred OperationInput.IsAcceptable := fun _ => decidable_of_iff _ isAcceptable_iff.symm

theorem perform_rejected (script : Script) (s : Surroundings) (h : ¬ input.IsAcceptable) :
    ∃ e, perform script s input = (s, ⟨.rejected e, none⟩) := by
  rw [isAcceptable_iff] at h
  simp only [perform, plan, Action.parse]
  cases named : Action.ofName? input.action with
  | none => exact ⟨_, rfl⟩
  | some action =>
    simp only [named, Option.isSome_some, true_and] at h
    dsimp only
    cases built : Plan.build input.target s.tokens action input.body with
    | error e => exact ⟨e, rfl⟩
    | ok planned => exact absurd (Plan.build_eq_ok.1 built).1 h

/-- The plan of an operation that is begun with a token. -/
def planOf (input : OperationInput) (action : Action) (token : Text) : Plan :=
  ⟨input.target, ⟨action, input.body, .object [], token⟩⟩

theorem perform_begun (script : Script) (s : Surroundings) (h : input.IsAcceptable) :
    ∃ action session run, input.action = action.name ∧
      Session.perform script s.session (planOf input action s.tokens.next.1) input.budget = (session, run) ∧
      perform script s input = (⟨session, s.tokens.next.2⟩, ⟨resultOf run, some run⟩) := by
  obtain ⟨named, fit⟩ := isAcceptable_iff.1 h
  obtain ⟨action, named⟩ := Option.isSome_iff_exists.1 named
  refine ⟨action, _, _, (Action.name_of_ofName? named).symm, rfl, ?_⟩
  simp only [perform, plan, Action.parse, named, Plan.build_eq_ok.2 ⟨fit, rfl⟩]
  rfl

/-! ## One operation of a sequence -/

namespace Passage

/-- The token that is next when an operation comes to its turn. -/
def token (p : Passage) : Text := p.before.tokens.next.1

/-- The calls that the handler has seen of an operation. -/
def calls (p : Passage) : List (Target × Request) :=
  p.after.session.calls.drop p.before.session.calls.length

/-- The waits that the sleeper has seen of an operation. -/
def waits (p : Passage) : List Double :=
  p.after.session.waits.drop p.before.session.waits.length

/-- What an operation that is begun does: it draws one token, its run is performed to its end if it
    has one, and its calls are all its own. -/
structure Begun (script : Script) (p : Passage) : Prop where
  tokens : p.after.tokens = p.before.tokens.next.2
  run : ∃ action run, p.input.action = action.name ∧ p.performed = ⟨resultOf run, some run⟩ ∧
    ∀ fuel session ended, Session.play script fuel p.before.session
        (.start (planOf p.input action p.token) p.input.budget p.before.session.signal) = (session, ended) →
      ended.demand = .nothing → session = p.after.session ∧ ended = run
  own : ∀ call ∈ p.calls, call.1 = p.input.target ∧ call.2.action.name = p.input.action ∧
    call.2.resourceRequest = p.input.body ∧ call.2.bearerToken = p.token

/-- What an operation that is not begun does: nothing. -/
structure Rejected (p : Passage) : Prop where
  surroundings : p.after = p.before
  performed : ∃ e, p.performed = ⟨.rejected e, none⟩

/-- What one operation does to the surroundings that it shares with others. -/
structure Isolated (script : Script) (p : Passage) : Prop where
  draws : p.after.tokens.drawn = p.before.tokens.drawn + 1 ↔ p.input.IsAcceptable
  begun : p.input.IsAcceptable → p.Begun script
  rejected : ¬ p.input.IsAcceptable → p.Rejected
  calls : p.after.session.calls = p.before.session.calls ++ p.calls
  waits : p.after.session.waits = p.before.session.waits ++ p.waits

/-- No call of an operation carries the token of another one that was begun. -/
def Apart (p q : Passage) : Prop :=
  p.input.IsAcceptable → ∀ call ∈ q.calls, call.2.bearerToken ≠ p.token

end Passage

theorem perform_prefix (script : Script) (origin : Session) (plan : Plan) (budget : Budget) :
    origin.calls <+: (Session.perform script origin plan budget).1.calls ∧
      origin.waits <+: (Session.perform script origin plan budget).1.waits := by
  refine Session.play_induction
    (P := fun s _ => origin.calls <+: s.calls ∧ origin.waits <+: s.waits) ?_ _
    ⟨List.prefix_refl _, List.prefix_refl _⟩
  rintro s r s' r' ⟨calls, waits⟩ served
  cases served with
  | call => exact ⟨calls.trans (List.prefix_append _ _), waits⟩
  | wait => exact ⟨calls, waits.trans (List.prefix_append _ _)⟩

/-- An operation whose run has been performed with its plan is begun as it should be. -/
theorem begun_of_performed {action : Action} {session : Session} {run : Run}
    (named : input.action = action.name)
    (performed : Session.perform script s.session (planOf input action s.tokens.next.1) input.budget =
      (session, run)) :
    Passage.Begun script ⟨s, input, ⟨resultOf run, some run⟩, ⟨session, s.tokens.next.2⟩⟩ := by
  refine ⟨rfl, ⟨action, run, named, rfl, ?_⟩, ?_⟩
  · intro fuel session' ended played idle
    simp only [Passage.token] at played
    -- a run that is ever over is over within the demands of a performance
    have hover : (Session.play script fuel s.session (.start (planOf input action s.tokens.next.1)
        input.budget s.session.signal)).2.demand = .nothing := by
      rw [played]
      exact idle
    have settled := Session.perform_settles hover
    rw [performed, played] at settled
    cases settled
    exact ⟨rfl, rfl⟩
  · have tracked := Session.play_tracked script (planOf input action s.tokens.next.1) input.budget s.session
      (Session.demands script input.budget)
    rw [← Session.perform, performed] at tracked
    obtain ⟨own, seen, carried⟩ := tracked.calls
    intro call hcall
    simp only at seen
    simp only [Passage.calls, seen, List.drop_left] at hcall
    obtain ⟨target, context, request⟩ := carried call hcall
    rw [request]
    exact ⟨target, named.symm, rfl, rfl⟩

theorem perform_isolated (script : Script) (s : Surroundings) (input : OperationInput) :
    Passage.Isolated script ⟨s, input, (perform script s input).2, (perform script s input).1⟩ := by
  by_cases acceptable : input.IsAcceptable
  · obtain ⟨action, session, run, named, performed, hp⟩ :=
      perform_begun script s acceptable
    obtain ⟨⟨calls, hcalls⟩, waits, hwaits⟩ :=
      perform_prefix script s.session (planOf input action s.tokens.next.1) input.budget
    rw [performed] at hcalls hwaits
    simp only at hcalls hwaits
    rw [hp]
    refine ⟨iff_of_true rfl acceptable, fun _ => begun_of_performed named performed,
      fun h => absurd acceptable h, ?_, ?_⟩
    · simp only [Passage.calls, ← hcalls, List.drop_left]
    · simp only [Passage.waits, ← hwaits, List.drop_left]
  · obtain ⟨e, hp⟩ := perform_rejected script s acceptable
    rw [hp]
    refine ⟨iff_of_false (by simp) acceptable, fun h => absurd h acceptable, fun _ => ⟨rfl, e, rfl⟩, ?_, ?_⟩
    · simp [Passage.calls]
    · simp [Passage.waits]

/-! ## Sequences -/

theorem performAll_cons (script : Script) (s : Surroundings) (input : OperationInput)
    (rest : List OperationInput) :
    performAll script s (input :: rest) =
      ⟨s, input, (perform script s input).2, (perform script s input).1⟩ ::
        performAll script (perform script s input).1 rest := rfl

theorem performAll_isolated (script : Script) (s : Surroundings) (inputs : List OperationInput) :
    ∀ p ∈ performAll script s inputs, p.Isolated script := by
  induction inputs generalizing s with
  | nil => intro p hp; cases hp
  | cons input rest ih =>
    intro p hp
    rw [performAll_cons] at hp
    rcases List.mem_cons.1 hp with rfl | hp
    · exact perform_isolated script s input
    · exact ih _ p hp

/-- What is left of a sequence without the operations that are not begun is the sequence without them. -/
theorem performAll_filter (script : Script) (s : Surroundings) (inputs : List OperationInput) :
    performAll script s (inputs.filter fun input => input.IsAcceptable) =
      (performAll script s inputs).filter fun p => p.input.IsAcceptable := by
  induction inputs generalizing s with
  | nil => rfl
  | cons input rest ih =>
    rw [performAll_cons]
    by_cases acceptable : input.IsAcceptable
    · rw [List.filter_cons_of_pos (by simpa using acceptable),
        List.filter_cons_of_pos (by simpa using acceptable), performAll_cons, ih]
    · obtain ⟨e, hp⟩ := perform_rejected script s acceptable
      rw [List.filter_cons_of_neg (by simpa using acceptable),
        List.filter_cons_of_neg (by simpa using acceptable), hp, ih]

namespace Passage.Isolated

variable {q : Passage}

theorem tokens (h : p.Isolated script) : p.after.tokens.token = p.before.tokens.token ∧
    p.before.tokens.drawn ≤ p.after.tokens.drawn := by
  by_cases acceptable : p.input.IsAcceptable
  · rw [(h.begun acceptable).tokens]
    exact ⟨rfl, Nat.le_succ _⟩
  · rw [(h.rejected acceptable).surroundings]
    exact ⟨rfl, Nat.le_refl _⟩

theorem carried (h : p.Isolated script) {call : Target × Request} (hc : call ∈ p.calls) :
    p.input.IsAcceptable ∧ call.2.bearerToken = p.token := by
  by_cases acceptable : p.input.IsAcceptable
  · obtain ⟨-, -, -, token⟩ := (h.begun acceptable).own call hc
    exact ⟨acceptable, token⟩
  · have silent : p.calls = [] := by
      rw [Passage.calls, (h.rejected acceptable).surroundings, List.drop_length]
    rw [silent] at hc
    cases hc

theorem apart (distinct : Function.Injective p.before.tokens.token) (hq : q.Isolated script)
    (source : q.before.tokens.token = p.before.tokens.token)
    (order : p.input.IsAcceptable → q.input.IsAcceptable →
      p.before.tokens.drawn ≠ q.before.tokens.drawn) : p.Apart q := by
  intro begun call hc
  obtain ⟨begun', token⟩ := hq.carried hc
  rw [token]
  intro same
  refine order begun begun' (distinct ?_)
  rw [← source]
  calc q.before.tokens.token p.before.tokens.drawn = p.token := by rw [source]; rfl
    _ = q.token := same.symm
    _ = q.before.tokens.token q.before.tokens.drawn := rfl

end Passage.Isolated

theorem performAll_source (script : Script) (s : Surroundings) (inputs : List OperationInput) :
    ∀ p ∈ performAll script s inputs, p.before.tokens.token = s.tokens.token ∧
      s.tokens.drawn ≤ p.before.tokens.drawn := by
  induction inputs generalizing s with
  | nil => intro p hp; cases hp
  | cons input rest ih =>
    intro p hp
    rw [performAll_cons] at hp
    rcases List.mem_cons.1 hp with rfl | hp
    · exact ⟨rfl, Nat.le_refl _⟩
    · obtain ⟨source, drawn⟩ := ih _ p hp
      obtain ⟨source', drawn'⟩ := (perform_isolated script s input).tokens
      exact ⟨source.trans source', Nat.le_trans drawn' drawn⟩

theorem performAll_apart (script : Script) (s : Surroundings) (inputs : List OperationInput)
    (distinct : Function.Injective s.tokens.token) :
    (performAll script s inputs).Pairwise fun p q => p.Apart q ∧ q.Apart p := by
  induction inputs generalizing s with
  | nil => exact List.Pairwise.nil
  | cons input rest ih =>
    rw [performAll_cons]
    have first := perform_isolated script s input
    have source := first.tokens.1
    refine List.Pairwise.cons ?_ (ih _ (by rw [source]; exact distinct))
    intro q hq
    have isolated := performAll_isolated script _ rest q hq
    obtain ⟨source', later⟩ := performAll_source script _ rest q hq
    -- the first operation has drawn its token before any of the later ones came to its turn
    have order : input.IsAcceptable → s.tokens.drawn ≠ q.before.tokens.drawn := by
      intro acceptable
      have drawn := first.draws.2 acceptable
      simp only at drawn
      omega
    constructor
    · exact isolated.apart distinct (source'.trans source) fun acceptable _ => order acceptable
    · refine first.apart ?_ (source'.trans source).symm fun _ acceptable => (order acceptable).symm
      rw [source', source]
      exact distinct

/-- **Operations that share a handler and a source of distinct tokens are isolated.** Each of them does
    to its surroundings what it may, those that are not begun can be left out of the sequence without
    changing anything about the others, and no call of one carries the token of another. -/
theorem operations_isolated (script : Script) (s : Surroundings) (inputs : List OperationInput)
    (distinct : Function.Injective s.tokens.token) :
    (∀ p ∈ performAll script s inputs, p.Isolated script) ∧
      performAll script s (inputs.filter fun input => input.IsAcceptable) =
        (performAll script s inputs).filter (fun p => p.input.IsAcceptable) ∧
      (performAll script s inputs).Pairwise fun p q => p.Apart q ∧ q.Apart p := by
  refine ⟨performAll_isolated script s inputs, performAll_filter script s inputs, ?_⟩
  exact performAll_apart script s inputs distinct

theorem numbered_injective : Function.Injective TokenSource.numbered.token := by
  intro m n h
  have digits : Text.ofNat (m + 1) = Text.ofNat (n + 1) := List.append_cancel_left h
  rw [ofNat_eq_digitText, ofNat_eq_digitText, Double.digitText, Double.digitText] at digits
  have inner : Function.Injective Text.ofDigit := by decide
  have same := congrArg Decimal.ofDigits (inner.list_map digits)
  rw [Decimal.ofDigits_digitsOf, Decimal.ofDigits_digitsOf] at same
  omega

/-- A misspelt action and a body that is no object, each before an operation that is begun. -/
theorem rejected_between_begun :
    let script : Script := ⟨[.respond (.object [("status", .text "SUCCESS")])], none⟩
    let target : Target := ⟨"http://localhost", "handler"⟩
    let misspelt : OperationInput := ⟨"create", .object [], target, .unbounded⟩
    let create : OperationInput := ⟨"CREATE", .object [], target, .unbounded⟩
    let listed : OperationInput := ⟨"READ", .array [], target, .unbounded⟩
    let read : OperationInput := ⟨"READ", .object [("id", .text "a")], target, .unbounded⟩
    let passages := performAll script (.begin script) [misspelt, create, listed, read]
    Function.Injective (Surroundings.begin script).tokens.token ∧
      (passages.map fun p => p.calls.map fun call => call.2.bearerToken) =
        [[], [("token-1" : Text)], [], [("token-2" : Text)]] ∧
      (∀ p ∈ passages, p.Isolated script) ∧
      performAll script (.begin script) [create, read] =
        passages.filter (fun p => p.input.IsAcceptable) ∧
      passages.Pairwise fun p q => p.Apart q ∧ q.Apart p := by
  intro script target misspelt create listed read passages
  have isolated := operations_isolated script (.begin script) [misspelt, create, listed, read]
    numbered_injective
  have begun : [misspelt, create, listed, read].filter (fun input => input.IsAcceptable) =
      [create, read] := rfl
  rw [begun] at isolated
  exact ⟨numbered_injective, by decide +kernel, isolated⟩

end Operation
end Lifecycle
