import Lifecycle.Proofs.Event.Accepted
import Lifecycle.Proofs.Json.Datum

/- What the check of a response looks at.

   The check reads the eight members that the contract names, and a null member is to it as one that is
   not there. So two responses that agree on these members (`Agree`) get the same verdict, whatever
   their order and whatever else they bring (`check_agree`): each part of the check gets the same from
   both, since what they have under a name is equal, or neither has anything there (`Agree.get`). -/
namespace Lifecycle

theorem Value.isAbsent_cases {v : Value} (h : v.isAbsent = true) : v = .null ∨ v = .undefined := by
  cases v with
  | null => exact .inl rfl
  | undefined => exact .inr rfl
  | _ => cases h

theorem Value.isJson_members {v : Value} (h : v.isJson = true) : ∀ m ∈ v.members, m.2.isJson = true := by
  cases v with
  | object ms => exact isJson_object.1 h
  | error message ms => exact isJson_error.1 h
  | _ => exact List.forall_mem_nil _

theorem Value.isJson_find? {v w : Value} {name : Text} (h : v.isJson = true) (hw : v.find? name = some w) :
    w.isJson = true := by
  unfold find? at hw
  split at hw
  · split at hw
    · cases hw
      rfl
    · cases hw
  · exact isJson_members h _ (Member.mem_of_find? hw)

theorem Json.compact_absent {v : Value} (h : v.isAbsent = true) : compact v = "null" := by
  obtain rfl | rfl := Value.isAbsent_cases h <;> rfl

namespace Envelope

def memberNames : List Text :=
  ["status", "message", "errorCode", "callbackContext", "callbackDelaySeconds", "resourceModel",
    "resourceModels", "nextToken"]

/-- Whether two responses have the same under every name of the contract, where null counts as
    nothing. -/
def Agree (raw raw' : Value) : Prop :=
  ∀ name ∈ memberNames, (raw.get name).present? = (raw'.get name).present?

/-- Two verdicts of which each says of its response what the other says of the other one: the same event
    with the same warnings, or an error of the same code and message. -/
inductive SameVerdict (raw raw' : Value) : Except EventError Report → Except EventError Report → Prop where
  | accepted (report : Report) : SameVerdict raw raw' (.ok report) (.ok report)
  | rejected (code : EventErrorCode) (message : Text) :
      SameVerdict raw raw' (.error ⟨code, message, raw⟩) (.error ⟨code, message, raw'⟩)

/-- JSON data hold no functions, so they cannot be waited for. -/
theorem isAwaitable_of_isJson {raw : Value} (h : raw.isJson = true) : isAwaitable raw = false := by
  have member : (raw.get "then").isFunction = false := by
    rw [Value.get]
    cases hv : raw.find? "then" with
    | none => rfl
    | some v => exact Value.isFunction_of_isJson (Value.isJson_find? h hv)
  rw [isAwaitable, member, Bool.false_and]

variable {raw raw' : Value} {name : Text}

/-! ## What the parts of the check get -/

namespace Agree

theorem get (h : Agree raw raw') (name : Text) (hn : name ∈ memberNames) :
    raw.get name = raw'.get name ∨ (raw.get name).isAbsent = true ∧ (raw'.get name).isAbsent = true := by
  have same := h name hn
  unfold Value.present? at same
  split at same
  · rename_i absent
    split at same
    · rename_i absent'
      exact .inr ⟨absent, absent'⟩
    · cases same
  · split at same
    · cases same
    · exact .inl (Option.some.inj same)

theorem isAbsent (h : Agree raw raw') (name : Text) (hn : name ∈ memberNames) :
    (raw.get name).isAbsent = (raw'.get name).isAbsent := by
  obtain same | ⟨absent, absent'⟩ := h.get name hn
  · rw [same]
  · rw [absent, absent']

theorem text? (h : Agree raw raw') (name : Text) (hn : name ∈ memberNames) :
    Envelope.text? raw name = Envelope.text? raw' name := by
  rw [Envelope.text?, Envelope.text?, h name hn]

theorem list? (h : Agree raw raw') (name : Text) (hn : name ∈ memberNames) :
    Envelope.list? raw name = Envelope.list? raw' name := by
  have none_of_absent {v : Value} (absent : (v.get name).isAbsent = true) :
      Envelope.list? v name = none := by
    rw [Envelope.list?]
    obtain hv | hv := Value.isAbsent_cases absent <;> rw [hv]
  obtain same | ⟨absent, absent'⟩ := h.get name hn
  · rw [Envelope.list?, Envelope.list?, same]
  · rw [none_of_absent absent, none_of_absent absent']

theorem details (h : Agree raw raw') : Envelope.details raw = Envelope.details raw' := by
  rw [Envelope.details, Envelope.details, h.text? "message" (by decide),
    h "resourceModel" (by decide), h.list? "resourceModels" (by decide),
    h.text? "nextToken" (by decide)]

theorem memberIssues (h : Agree raw raw') : Envelope.memberIssues raw = Envelope.memberIssues raw' := by
  have text (name : Text) (hn : name ∈ memberNames) : textIssues raw name = textIssues raw' name := by
    rw [textIssues, textIssues, h name hn]
  have object (name : Text) (hn : name ∈ memberNames) : objectIssues raw name = objectIssues raw' name := by
    rw [objectIssues, objectIssues, h name hn]
  have value (name : Text) (hn : name ∈ memberNames) : valueIssues raw name = valueIssues raw' name := by
    rw [valueIssues, valueIssues, h name hn]
  have list (name : Text) (hn : name ∈ memberNames) : listIssues raw name = listIssues raw' name := by
    rw [listIssues, listIssues, h name hn]
  rw [Envelope.memberIssues, Envelope.memberIssues, text "message" (by decide), text "errorCode" (by decide),
    object "callbackContext" (by decide), value "resourceModel" (by decide),
    list "resourceModels" (by decide), text "nextToken" (by decide)]

theorem terminalWarnings (h : Agree raw raw') (s : Status) :
    Envelope.terminalWarnings raw s = Envelope.terminalWarnings raw' s := by
  rw [Envelope.terminalWarnings, Envelope.terminalWarnings,
    h.isAbsent "callbackContext" (by decide),
    h.isAbsent "callbackDelaySeconds" (by decide)]

theorem status? (h : Agree raw raw') : Envelope.status? raw = Envelope.status? raw' := by
  rw [Envelope.status?, Envelope.status?]
  obtain same | ⟨absent, absent'⟩ := h.get "status" (by decide)
  · rw [same]
  · obtain hv | hv := Value.isAbsent_cases absent <;>
      obtain hv' | hv' := Value.isAbsent_cases absent' <;> rw [hv, hv'] <;> rfl

/-- What is said of a status that is not known names it, and one that is absent as null. -/
theorem compact (h : Agree raw raw') (name : Text) (hn : name ∈ memberNames) :
    Json.compact (raw.get name) = Json.compact (raw'.get name) := by
  obtain same | ⟨absent, absent'⟩ := h.get name hn
  · rw [same]
  · rw [Json.compact_absent absent, Json.compact_absent absent']

theorem report (h : Agree raw raw') (s : Status) :
    SameVerdict raw raw' (Envelope.report raw s) (Envelope.report raw' s) := by
  have code := h.text? "errorCode" (by decide)
  cases s with
  | success =>
    simp only [Envelope.report, successReport, code, h.details, h.terminalWarnings]
    exact .accepted _
  | failed =>
    simp only [Envelope.report, code]
    split
    · simp only [failedReport, h.details, h.terminalWarnings]
      exact .accepted _
    · exact .rejected _ _
  | inProgress =>
    simp only [Envelope.report, inProgressReport, h "callbackDelaySeconds" (by decide),
      h "callbackContext" (by decide), h.details]
    split
    · exact .accepted _
    · split
      · exact .accepted _
      · exact .rejected _ _

end Agree

/-- **Null means absent, and only the members of the contract matter.** Two JSON objects that agree on
    the members of the contract get the same verdict, in whatever order they have their members and
    whatever else they have. Of objects that are no JSON data the same is true unless they can be waited
    for, which has a response refused as a whole. -/
theorem check_agree (object : raw.isObject = true) (object' : raw'.isObject = true)
    (json : raw.isJson = true ∨ isAwaitable raw = false)
    (json' : raw'.isJson = true ∨ isAwaitable raw' = false) (agree : Agree raw raw') :
    SameVerdict raw raw' (check raw) (check raw') := by
  have plain : isAwaitable raw = isAwaitable raw' :=
    (json.elim isAwaitable_of_isJson id).trans (json'.elim isAwaitable_of_isJson id).symm
  have typed : issues raw = issues raw' := by
    rw [issues, issues, plain, agree.memberIssues]
  simp only [check, object, object', agree.status?, agree.compact "status" (by decide), typed,
    Bool.not_true, Bool.false_eq_true, if_false]
  split
  · exact .rejected _ _
  · split
    · exact agree.report _
    · exact .rejected _ _

/-- A response that spells out what it lacks as null, before other members in another order, is reported
    like one that leaves it out: as failed with an unknown code, with the warning for its delay. -/
theorem nulls_left_out :
    let raw : Value := .object [("7", .array []), ("nextToken", .null), ("callbackContext", .null),
      ("callbackDelaySeconds", .text "soon"), ("errorCode", .text "Broken"), ("message", .null),
      ("status", .text "FAILED"), ("resourceModels", .null), ("trace", .object [("status", .null)])]
    let raw' : Value := .object [("status", .text "FAILED"), ("errorCode", .text "Broken"),
      ("callbackDelaySeconds", .text "soon"), ("resourceModel", .null)]
    raw.isObject = true ∧ raw'.isObject = true ∧ raw.isJson = true ∧ raw'.isJson = true ∧ Agree raw raw' ∧
      SameVerdict raw raw' (check raw) (check raw') ∧
      check raw' = .ok ⟨.failed ⟨⟨none, none, none, none⟩, "Broken"⟩,
        [.unknownCode "Broken", .callbackDelay .failed]⟩ := by
  intro raw raw'
  have json : raw.isJson = true := by decide +kernel
  have json' : raw'.isJson = true := by decide +kernel
  have agree : Agree raw raw' := by
    intro name hn
    simp only [memberNames, List.mem_cons, List.not_mem_nil, or_false] at hn
    obtain rfl | rfl | rfl | rfl | rfl | rfl | rfl | rfl := hn <;>
      simp +decide only [raw, raw', Value.get, Value.find?, Value.members, Member.find?, if_true, if_false,
        Option.getD_some, Option.getD_none, Value.present?, Value.isAbsent]
  exact ⟨rfl, rfl, json, json', agree, check_agree rfl rfl (.inl json) (.inl json') agree, rfl⟩

end Envelope

end Lifecycle
