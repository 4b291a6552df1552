import Lifecycle.Proofs.Call.Checked
import Lifecycle.Proofs.Json.Nodes

/- Which request bodies are accepted, and what is said of the others.

   A body is accepted if it is an object and each of its nodes is JSON data of its own kind. Otherwise the
   search for the first fault and the later lookup of what stands at its path meet at one node
   (`RequestBody.check_faulty`), so the message names the right path and describes the right value. The
   other checks for JSON data make the same search, and accept the same objects. -/
namespace Lifecycle

variable {body : Value}

/-- What is said of a body whose first fault is at a path. -/
def RequestBody.faultMessage (path : List Text) (fault : Value) : Text :=
  "Request body is not plain JSON at " ++ Text.join "." path ++ ": " ++ describe fault ++
    " is not a JSON value"

theorem Value.FirstFault.ne_nil {path : List Text} {fault : Value} (h : FirstFault body.nodes path fault)
    (object : body.isObject = true) (led : body.follow path = fault) : path ≠ [] := by
  rintro rfl
  have faulty := h.faulty
  rw [← led, Value.follow, List.foldl_nil] at faulty
  cases body with
  | object ms => cases faulty
  | error message ms => cases faulty
  | _ => cases object

/-- The message on an object that is refused is about its first fault, and that is where its path leads. -/
theorem RequestBody.check_faulty (formed : ∀ n ∈ body.nodes, n.2.isFormed = true)
    (object : body.isObject = true) {e : RequestError} (h : check body = .error e) :
    ∃ path fault, body.nonJsonPath? = some path ∧ path ≠ [] ∧ Value.FirstFault body.nodes path fault ∧
      body.follow path = fault ∧ e = .malformedRequest (faultMessage path fault) := by
  rw [check, object] at h
  cases found : body.nonJsonPath? with
  | none =>
    rw [found] at h
    cases h
  | some path =>
    obtain ⟨fault, first⟩ := body.nonJsonPath?_first found
    obtain ⟨before, after, listed, -⟩ := first.split
    have led : body.follow path = fault :=
      Value.follow_of_mem_nodes formed (listed ▸ List.mem_append_right _ List.mem_cons_self)
    have inner := first.ne_nil object led
    refine ⟨path, fault, rfl, inner, first, led, ?_⟩
    obtain ⟨step, rest, rfl⟩ := List.exists_cons_of_ne_nil inner
    rw [found] at h
    cases h
    rw [faultMessage, ← led]
    rfl

theorem Plan.build_eq_error {target : Target} {tokens : TokenSource} {action : Action} {e : RequestError} :
    build target tokens action body = .error e ↔ RequestBody.check body = .error e := by
  rw [build]
  cases RequestBody.check body <;> simp

theorem Plan.build_accepts {target : Target} {tokens : TokenSource} {action : Action} :
    (∃ built, build target tokens action body = .ok built) ↔ body.isJsonObject = true := by
  constructor
  · rintro ⟨built, h⟩
    exact (build_eq_ok.1 h).1
  · intro fit
    exact ⟨_, build_eq_ok.2 ⟨fit, rfl⟩⟩

/-- The type of a member asks of an object just what the search does. -/
theorem Envelope.valueIssues_object {raw : Value} {name : Text} (held : raw.get name = body)
    (object : body.isObject = true) : valueIssues raw name = [] ↔ body.isJson = true := by
  have present : body.present? = some body := by
    cases body with
    | object ms => rfl
    | error message ms => rfl
    | _ => cases object
  rw [valueIssues, held, present]
  cases hj : body.isJson <;> simp [hj]

/-- **A request body is refused for its first fault, and only for one.** An operation begins with an object
    of which every node is JSON data of its own kind, and carries it as it is, with an empty context. If an
    object is refused, the path in the message is that of the first node that is no such data, everything
    before it is sound, and the value in the message is the one at that path. The other checks accept
    the same objects: that of a saved response, and that of a member that has to be JSON data. -/
theorem Plan.build_judges (target : Target) (tokens : TokenSource) (action : Action)
    (formed : ∀ n ∈ body.nodes, n.2.isFormed = true) :
    ((∃ built, build target tokens action body = .ok built) ↔
      body.isObject = true ∧ ∀ n ∈ body.nodes, n.2.isPlain = true) ∧
    (∀ plan rest, build target tokens action body = .ok (plan, rest) →
      plan.request.resourceRequest = body ∧ plan.request.callbackContext = .object []) ∧
    (∀ e, build target tokens action body = .error e → body.isObject = true →
      ∃ path fault, body.nonJsonPath? = some path ∧ path ≠ [] ∧ Value.FirstFault body.nodes path fault ∧
        body.follow path = fault ∧ e = .malformedRequest (RequestBody.faultMessage path fault)) ∧
    (body.isObject = true →
      (body.isJson = true ↔ ∃ built, build target tokens action body = .ok built) ∧
      (∀ raw name, raw.get name = body →
        (Envelope.valueIssues raw name = [] ↔ ∃ built, build target tokens action body = .ok built)) ∧
      (∀ file, Command.validateEvent file (.loaded body) ≠
          .misuse (.ofMessage ("Not a JSON document: " ++ file)) ↔
        ∃ built, build target tokens action body = .ok built)) := by
  rw [build_accepts, Value.isJsonObject, Bool.and_eq_true]
  refine ⟨?_, ?_, ?_, ?_⟩
  · rw [Value.isJson_iff_nodes]
  · intro plan rest h
    obtain ⟨-, built⟩ := build_eq_ok.1 h
    cases built
    exact ⟨rfl, rfl⟩
  · intro e h object
    exact RequestBody.check_faulty formed object (build_eq_error.1 h)
  · intro object
    refine ⟨?_, ?_, ?_⟩
    · simp only [object, true_and]
    · intro raw name held
      rw [Envelope.valueIssues_object held object]
      simp only [object, true_and]
    · intro file
      rw [Ne, Command.validateEvent_loaded, not_not]
      simp only [object, true_and]

/-- What is no number stands under a name of its own in the second item of a list; an undefined value
    comes later, and is not looked at. -/
theorem nested_fault_named :
    let inner : Value := .object [("__proto__", .number .nan)]
    let body : Value := .object [("0", .array [.text "a", inner]), ("b", .undefined)]
    let path : List Text := ["0", "1", "__proto__"]
    (∀ n ∈ body.nodes, n.2.isFormed = true) ∧ Value.FirstFault body.nodes path (.number .nan) ∧
      Plan.build ⟨[], []⟩ .numbered .create body = .error (.malformedRequest
        "Request body is not plain JSON at 0.1.__proto__: NaN is not a JSON value") := by
  intro inner body path
  have formed : ∀ n ∈ body.nodes, n.2.isFormed = true := List.all_eq_true.1 (by decide)
  have found : body.nonJsonPath? = some path := rfl
  have judged := (Plan.build_judges ⟨[], []⟩ .numbered .create formed).2.2.1
  cases h : Plan.build ⟨[], []⟩ .numbered .create body with
  | ok built =>
    have fit := (Plan.build_eq_ok.1 h).1
    cases fit
  | error e =>
    obtain ⟨p, fault, hp, -, first, led, rfl⟩ := judged e h rfl
    obtain rfl : path = p := Option.some.inj (found.symm.trans hp)
    obtain rfl : .number .nan = fault := led
    exact ⟨formed, first, rfl⟩

end Lifecycle
