import Lifecycle.Proofs.Event.Accepted
import Lifecycle.Proofs.Json.Datum

/- The event contract, and the check that decides it.

   The contract gives a type to each of the optional members, and asks the parts of a
   response that are there to have theirs. A response is ruled out by the first demand it
   does not meet: to be an object, of a known status, with well-typed members, with an error
   code if it failed, with a proper delay if it is unfinished. If it meets all of them it
   holds one event. `Ruling` says this without the check, and the check gives exactly the
   ruling (`check_eq_iff`). -/
namespace Lifecycle

namespace Envelope

/-! ## The types of members -/

/-- The types that the contract gives to members. -/
inductive MemberType where
  | text
  | object
  | json
  | list
deriving DecidableEq

namespace MemberType

def admits : MemberType → Value → Bool
  | .text, .text _ => true
  | .list, .array _ => true
  | .object, v => v.isObject && decide v.JsonData
  | .json, v => decide v.JsonData
  | _, _ => false

/-- What is said of a value of another type. -/
def complaint : MemberType → Value → Text
  | .text, v => "Expected string, received " ++ typeName v
  | .list, v => "Expected array, received " ++ typeName v
  | .object, _ => "Expected a JSON object"
  | .json, _ => "Expected a JSON value"

end MemberType

/-- The optional members with their types, in the order of the contract. -/
def contract : List (Text × MemberType) :=
  [("message", .text), ("errorCode", .text), ("callbackContext", .object), ("resourceModel", .json),
    ("resourceModels", .list), ("nextToken", .text)]

/-- A part of a response for which the contract has a type. -/
structure Part where
  path : List Text
  type : MemberType
  value : Value

namespace Part

def isWellTyped (p : Part) : Bool := p.type.admits p.value

/-- What is wrong with a part of another type. -/
def issue (p : Part) : Issue := ⟨p.path, p.type.complaint p.value⟩

/-- What is wrong with parts, one issue for each that has another type. -/
def issuesOf (ps : List Part) : List Issue := (ps.filter fun p => !p.isWellTyped).map issue

theorem issuesOf_append (ps qs : List Part) : issuesOf (ps ++ qs) = issuesOf ps ++ issuesOf qs := by
  rw [issuesOf, List.filter_append, List.map_append]
  rfl

theorem issuesOf_cons (p : Part) (ps : List Part) :
    issuesOf (p :: ps) = (if p.isWellTyped then [] else [p.issue]) ++ issuesOf ps := by
  cases h : p.isWellTyped <;> simp [issuesOf, h]

theorem issuesOf_single (p : Part) : issuesOf [p] = if p.isWellTyped then [] else [p.issue] := by
  rw [issuesOf_cons]
  exact List.append_nil _

theorem issuesOf_eq_nil {ps : List Part} : issuesOf ps = [] ↔ ∀ p ∈ ps, p.isWellTyped = true := by
  simp [issuesOf, List.filter_eq_nil_iff]

end Part

/-- The items of a member that has to be a list of JSON data. -/
def itemParts (name : Text) : MemberType → Value → List Part
  | .list, .array items => items.mapIdx fun i item => ⟨[name, Text.ofNat i], .json, item⟩
  | _, _ => []

/-- The parts of a member that is there: itself, and then its items. -/
def memberParts (raw : Value) (name : Text) (type : MemberType) : List Part :=
  match (raw.get name).present? with
  | none => []
  | some v => ⟨[name], type, v⟩ :: itemParts name type v

/-- The parts of a response for which the contract has types. -/
def parts (raw : Value) : List Part := contract.flatMap fun m => memberParts raw m.1 m.2

variable {raw : Value} {s : Status}

/-! ## The check of types -/

theorem decide_jsonData (v : Value) : decide v.JsonData = v.isJson := by
  rw [Bool.eq_iff_iff, decide_eq_true_iff, Value.isJson_iff]

theorem textIssues_eq (raw : Value) (name : Text) :
    textIssues raw name = Part.issuesOf (memberParts raw name .text) := by
  rw [textIssues, memberParts]
  cases (raw.get name).present? with
  | none => rfl
  | some v => cases v <;> rfl

theorem objectIssues_eq (raw : Value) (name : Text) :
    objectIssues raw name = Part.issuesOf (memberParts raw name .object) := by
  rw [objectIssues, memberParts]
  cases (raw.get name).present? with
  | none => rfl
  | some v =>
    simp only [itemParts, Part.issuesOf_single, Part.isWellTyped, MemberType.admits, decide_jsonData]
    rfl

theorem valueIssues_eq (raw : Value) (name : Text) :
    valueIssues raw name = Part.issuesOf (memberParts raw name .json) := by
  rw [valueIssues, memberParts]
  cases (raw.get name).present? with
  | none => rfl
  | some v =>
    simp only [itemParts, Part.issuesOf_single, Part.isWellTyped, MemberType.admits, decide_jsonData]
    rfl

theorem itemIssues_eq (name : Text) (index : Nat) (items : List Value) : itemIssues name index items =
    Part.issuesOf (items.mapIdx fun i item => ⟨[name, Text.ofNat (index + i)], .json, item⟩) := by
  induction items generalizing index with
  | nil => rfl
  | cons v items ih =>
    rw [itemIssues, ih, List.mapIdx_cons, Part.issuesOf_cons, Part.isWellTyped, MemberType.admits,
      decide_jsonData]
    simp only [Nat.add_zero, Nat.add_assoc, Nat.add_comm 1]
    rfl

theorem listIssues_eq (raw : Value) (name : Text) :
    listIssues raw name = Part.issuesOf (memberParts raw name .list) := by
  rw [listIssues, memberParts]
  cases (raw.get name).present? with
  | none => rfl
  | some v =>
    cases v with
    | array items =>
      simp only [itemIssues_eq, itemParts, Part.issuesOf_cons, Nat.zero_add]
      rfl
    | _ => rfl

/-- **There is one issue for each part that is not well typed**, in the order of the contract. -/
theorem memberIssues_eq (raw : Value) : memberIssues raw = Part.issuesOf (parts raw) := by
  simp only [memberIssues, textIssues_eq, objectIssues_eq, valueIssues_eq, listIssues_eq, parts, contract,
    List.flatMap_cons, List.flatMap_nil, List.append_nil, Part.issuesOf_append, List.append_assoc]

/-! ## Rulings -/

/-- A response that meets the demands on all statuses. -/
structure WellTyped (raw : Value) (s : Status) : Prop where
  object : raw.isObject = true
  status : raw.get "status" = .text s.name
  plain : isAwaitable raw = false
  typed : ∀ p ∈ parts raw, p.isWellTyped = true

/-- What an event of some status has besides the members that any event may have. -/
def HoldsSpecial (raw : Value) : Event → Prop
  | .success _ => True
  | .failed e => raw.get "errorCode" = .text e.errorCode ∧ e.errorCode ≠ []
  | .inProgress e => e.callbackContext = contextOf raw ∧
      e.callbackDelaySeconds.map some = (raw.get "callbackDelaySeconds").present?.map delaySeconds?

/-- The event that a response holds: it has the status of the response, and of the members that any
    event may have exactly those that are there, unchanged. -/
structure Holds (raw : Value) (event : Event) : Prop where
  message : event.details.message.map Value.text = (raw.get "message").present?
  resourceModel : event.details.resourceModel = (raw.get "resourceModel").present?
  resourceModels : event.details.resourceModels.map Value.array = (raw.get "resourceModels").present?
  nextToken : event.details.nextToken.map Value.text = (raw.get "nextToken").present?
  special : HoldsSpecial raw event

def malformed (raw : Value) (is : List Issue) : EventError :=
  ⟨.malformedEvent, "Response fields have the wrong type (" ++ issueLine is ++ ")", raw⟩

/-- How the contract rules on a response: by the first demand that it does not meet, or by the event
    that it holds. -/
inductive Ruling (raw : Value) : Except EventError Event → Prop where
  | notObject (h : raw.isObject = false) :
      Ruling raw (.error ⟨.malformedEvent, "Response must be a JSON object", raw⟩)
  | unknownStatus (object : raw.isObject = true) (h : ∀ s : Status, raw.get "status" ≠ .text s.name) :
      Ruling raw (.error ⟨.unknownStatus, "Unknown status " ++ Json.compact (raw.get "status"), raw⟩)
  | awaitable {s : Status} (object : raw.isObject = true) (status : raw.get "status" = .text s.name)
      (h : isAwaitable raw = true) :
      Ruling raw (.error (malformed raw [⟨[], "Expected object, received promise"⟩]))
  | illTyped {s : Status} (object : raw.isObject = true) (status : raw.get "status" = .text s.name)
      (plain : isAwaitable raw = false) (h : ∃ p ∈ parts raw, p.isWellTyped = false) :
      Ruling raw (.error (malformed raw (Part.issuesOf (parts raw))))
  | uncoded (typed : WellTyped raw .failed)
      (h : (raw.get "errorCode").isAbsent = true ∨ raw.get "errorCode" = .text []) :
      Ruling raw (.error ⟨.missingErrorCode, "FAILED response carries no errorCode", raw⟩)
  | undelayed {v : Value} (typed : WellTyped raw .inProgress)
      (present : (raw.get "callbackDelaySeconds").present? = some v) (h : delaySeconds? v = none) :
      Ruling raw (.error ⟨.invalidDelay,
        "callbackDelaySeconds must be a non-negative integer, got " ++ Json.compact v, raw⟩)
  | accepted {event : Event} (typed : WellTyped raw event.status) (h : Holds raw event) :
      Ruling raw (.ok event)

/-! ## The check gives the ruling -/

theorem status?_eq_some : status? raw = some s ↔ raw.get "status" = .text s.name := by
  have hname (t : Text) : Status.ofName? t = some s ↔ t = s.name := by
    constructor
    · intro h
      have := List.find?_some h
      exact (beq_iff_eq.1 this).symm
    · rintro rfl
      cases s <;> decide
  rw [status?]
  cases raw.get "status" with
  | text t => simp [Value.text?, hname]
  | _ => exact iff_of_false nofun nofun

theorem check_of_status (ho : raw.isObject = true) (hs : raw.get "status" = .text s.name) :
    check raw = if (issues raw).isEmpty then Envelope.report raw s else .error (malformed raw (issues raw)) := by
  rw [check, ho, status?_eq_some.2 hs]
  cases issues raw <;> rfl

theorem check_illTyped (ho : raw.isObject = true) (hs : raw.get "status" = .text s.name)
    (ha : isAwaitable raw = false) {p : Part} (hp : p ∈ parts raw) (hwrong : p.isWellTyped = false) :
    check raw = .error (malformed raw (Part.issuesOf (parts raw))) := by
  have hissues : issues raw = Part.issuesOf (parts raw) := by
    rw [issues, ha, ← memberIssues_eq]
    rfl
  rw [check_of_status ho hs, hissues]
  cases his : Part.issuesOf (parts raw) with
  | nil =>
    rw [Part.issuesOf_eq_nil.1 his p hp] at hwrong
    cases hwrong
  | cons i is => rfl

theorem WellTyped.check_eq (h : WellTyped raw s) : check raw = Envelope.report raw s := by
  have hissues : issues raw = [] := by
    rw [issues, h.plain, memberIssues_eq, Part.issuesOf_eq_nil.2 h.typed]
    rfl
  rw [check_of_status h.object h.status, hissues]
  rfl

theorem WellTyped.member (h : WellTyped raw s) {name : Text} {type : MemberType}
    (hm : (name, type) ∈ contract) {v : Value} (hv : (raw.get name).present? = some v) :
    type.admits v = true := by
  refine h.typed ⟨[name], type, v⟩ (List.mem_flatMap.2 ⟨(name, type), hm, ?_⟩)
  rw [memberParts, hv]
  exact List.mem_cons_self

theorem WellTyped.text (h : WellTyped raw s) (name : Text) (hm : (name, .text) ∈ contract) :
    (text? raw name).map Value.text = (raw.get name).present? := by
  rw [text?]
  cases hv : (raw.get name).present? with
  | none => rfl
  | some v =>
    have := h.member hm hv
    cases v <;> first | rfl | cases this

theorem WellTyped.list (h : WellTyped raw s) (name : Text) (hm : (name, .list) ∈ contract) :
    (list? raw name).map Value.array = (raw.get name).present? := by
  have hmember {v : Value} := h.member (v := v) hm
  rw [list?]
  generalize raw.get name = v at hmember
  cases v with
  | array items => rfl
  | null => rfl
  | undefined => rfl
  | _ => cases hmember rfl

theorem holds_of_typed (h : WellTyped raw s) {event : Event} (hd : event.details = details raw)
    (special : HoldsSpecial raw event) : Holds raw event where
  message := by
    rw [hd]
    exact h.text _ (by decide)
  resourceModel := by
    rw [hd]
    rfl
  resourceModels := by
    rw [hd]
    exact h.list _ (by decide)
  nextToken := by
    rw [hd]
    exact h.text _ (by decide)
  special := special

theorem present?_eq_some {v w : Value} (h : v.present? = some w) : v = w := by
  unfold Value.present? at h
  split at h
  · cases h
  · exact Option.some.inj h

theorem present?_eq_none {v : Value} (h : v.present? = none) : v.isAbsent = true := by
  unfold Value.present? at h
  split at h
  · assumption
  · cases h

theorem Holds.details_eq {event : Event} (typed : WellTyped raw s) (h : Holds raw event) :
    event.details = details raw := by
  have htext : Function.Injective (Option.map Value.text) :=
    Option.map_injective fun _ _ => Value.text.inj
  have hlist : Function.Injective (Option.map Value.array) :=
    Option.map_injective fun _ _ => Value.array.inj
  have hmessage := htext (h.message.trans (typed.text _ (by decide)).symm)
  have hmodels := hlist (h.resourceModels.trans (typed.list _ (by decide)).symm)
  have htoken := htext (h.nextToken.trans (typed.text _ (by decide)).symm)
  rw [details, ← hmessage, ← h.resourceModel, ← hmodels, ← htoken]

theorem Holds.report_eq {event : Event} (typed : WellTyped raw event.status) (h : Holds raw event) :
    (Envelope.report raw event.status).map Report.event = .ok event := by
  have hdetails := h.details_eq typed
  have hspecial := h.special
  cases event with
  | success e =>
    obtain ⟨d⟩ := e
    cases hdetails
    rfl
  | failed e =>
    obtain ⟨d, code⟩ := e
    cases hdetails
    obtain ⟨hget, hne⟩ := hspecial
    have hcode : text? raw "errorCode" = some code := by rw [text?, hget]; rfl
    obtain ⟨u, rest, rfl⟩ := List.exists_cons_of_ne_nil hne
    simp only [Event.status, Envelope.report, hcode]
    rfl
  | inProgress e =>
    obtain ⟨d, context, delay⟩ := e
    cases hdetails
    obtain ⟨hcontext, hdelay⟩ := hspecial
    cases hcontext
    simp only [Event.status, Envelope.report]
    cases hv : (raw.get "callbackDelaySeconds").present? with
    | none =>
      rw [hv] at hdelay
      obtain rfl : delay = none := Option.map_eq_none_iff.1 hdelay
      rfl
    | some v =>
      rw [hv] at hdelay
      obtain ⟨seconds, rfl, hs⟩ := Option.map_eq_some_iff.1 hdelay
      simp only [← hs]
      rfl

theorem report_ruling (h : WellTyped raw s) : Ruling raw ((Envelope.report raw s).map Report.event) := by
  cases s with
  | success => exact .accepted h (holds_of_typed h rfl trivial)
  | failed =>
    have hcode := h.text "errorCode" (by decide)
    rw [Envelope.report]
    cases ht : text? raw "errorCode" with
    | none =>
      rw [ht] at hcode
      exact .uncoded h (.inl (present?_eq_none hcode.symm))
    | some code =>
      rw [ht] at hcode
      have hget := present?_eq_some hcode.symm
      cases code with
      | nil =>
        -- an empty code is a text, but it counts as none
        exact .uncoded h (.inr hget)
      | cons u rest => exact .accepted h (holds_of_typed h rfl ⟨hget, List.cons_ne_nil u rest⟩)
  | inProgress =>
    rw [Envelope.report]
    cases hv : (raw.get "callbackDelaySeconds").present? with
    | none => exact .accepted h (holds_of_typed h rfl ⟨rfl, by rw [hv]; rfl⟩)
    | some v =>
      cases hs : delaySeconds? v with
      | none =>
        simp only [hs]
        exact .undelayed h hv hs
      | some seconds =>
        simp only [hs]
        exact .accepted h (holds_of_typed h rfl ⟨rfl, by simp only [hv, Option.map_some, hs]⟩)

theorem check_ruling (raw : Value) : Ruling raw ((check raw).map Report.event) := by
  cases ho : raw.isObject with
  | false =>
    rw [check, ho]
    exact .notObject ho
  | true =>
    cases hs : status? raw with
    | none =>
      rw [check, ho, hs]
      refine .unknownStatus ho ?_
      intro s h
      rw [status?_eq_some.2 h] at hs
      cases hs
    | some s =>
      have hstatus := status?_eq_some.1 hs
      cases ha : isAwaitable raw with
      | true =>
        rw [check_of_status ho hstatus, issues, ha]
        exact .awaitable ho hstatus ha
      | false =>
        by_cases htyped : ∀ p ∈ parts raw, p.isWellTyped = true
        · have h : WellTyped raw s := ⟨ho, hstatus, ha, htyped⟩
          rw [h.check_eq]
          exact report_ruling h
        · simp only [not_forall, Bool.not_eq_true] at htyped
          obtain ⟨p, hp, hwrong⟩ := htyped
          rw [check_illTyped ho hstatus ha hp hwrong]
          exact .illTyped ho hstatus ha ⟨p, hp, hwrong⟩

theorem accepted_of_check {report : Report} (h : check raw = .ok report) :
    WellTyped raw report.event.status ∧ Holds raw report.event := by
  have ruling := check_ruling raw
  rw [h] at ruling
  cases ruling with
  | accepted typed holds => exact ⟨typed, holds⟩

theorem text?_uncoded (h : (raw.get "errorCode").isAbsent = true ∨ raw.get "errorCode" = .text []) :
    text? raw "errorCode" = none ∨ text? raw "errorCode" = some [] := by
  rw [text?]
  obtain habsent | hempty := h
  · rw [Value.present?, if_pos habsent]
    exact .inl rfl
  · rw [hempty]
    exact .inr rfl

theorem Ruling.check_eq {r : Except EventError Event} (h : Ruling raw r) :
    (check raw).map Report.event = r := by
  cases h with
  | notObject h =>
    rw [check, h]
    rfl
  | unknownStatus object h =>
    have hs : status? raw = none := by
      rw [Option.eq_none_iff_forall_ne_some]
      intro s hs
      exact h s (status?_eq_some.1 hs)
    rw [check, object, hs]
    rfl
  | awaitable object status h =>
    rw [check_of_status object status, issues, h]
    rfl
  | illTyped object status plain h =>
    obtain ⟨p, hp, hwrong⟩ := h
    rw [check_illTyped object status plain hp hwrong]
    rfl
  | uncoded typed h =>
    rw [typed.check_eq, Envelope.report]
    obtain hcode | hcode := text?_uncoded h <;> rw [hcode] <;> rfl
  | undelayed typed present h =>
    rw [typed.check_eq, Envelope.report, present]
    simp only [h]
    rfl
  | accepted typed h => rw [typed.check_eq, h.report_eq typed]

/-- **The check decides the contract exactly**: what it says of a response is the ruling of the
    contract on it, and there is no other. -/
theorem check_eq_iff (raw : Value) (r : Except EventError Event) :
    (check raw).map Report.event = r ↔ Ruling raw r := by
  constructor
  · rintro rfl
    exact check_ruling raw
  · exact Ruling.check_eq

/-- A response that can be waited for is refused, although it meets every demand on its status and its
    members. -/
theorem awaitable_refused :
    let raw : Value := .object [("status", .text "SUCCESS"), ("then", .function), ("catch", .function)]
    raw.isObject = true ∧ raw.get "status" = .text Status.success.name ∧
      (∀ p ∈ parts raw, p.isWellTyped = true) ∧
      check raw = .error (malformed raw [⟨[], "Expected object, received promise"⟩]) := by
  intro raw
  have hparts : parts raw = [] := rfl
  refine ⟨rfl, rfl, ?_, rfl⟩
  rw [hparts]
  exact List.forall_mem_nil _

end Envelope

end Lifecycle
