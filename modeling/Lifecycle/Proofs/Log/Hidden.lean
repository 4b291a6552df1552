import Lifecycle.Log.Redaction
import Lifecycle.Proofs.Event.Accepted
import Lifecycle.Proofs.Json.Datum

/- Responses that differ in credentials alone, and what becomes of the difference.

   Two objects are compared member by member: their names are the same, and so are the
   values, except where they are related (`InObjects`). On top of this stand contexts that
   differ in credentials and responses with such contexts. The check of a response does not
   see the difference (`ResponsesAlike.check`), and hiding removes it wherever a path leads
   to it (`ContextsAlike.hide_eq`). -/
namespace Lifecycle

/-! ## Objects, member by member -/

namespace Value

/-- Two objects with the same names in the same order, and under each name with equal values or with
    related ones. -/
inductive InObjects (rel : Text → Value → Value → Prop) : Value → Value → Prop where
  | objects {ms ms' : Members}
      (h : List.Forall₂ (fun m m' => m.1 = m'.1 ∧ (m.2 = m'.2 ∨ rel m.1 m.2 m'.2)) ms ms') :
      InObjects rel (.object ms) (.object ms')

variable {rel : Text → Value → Value → Prop} {v v' : Value}

theorem InObjects.isJson (h : InObjects rel v v')
    (hrel : ∀ name w w', rel name w w' → w.isJson = w'.isJson) : v.isJson = v'.isJson := by
  obtain ⟨h⟩ := h
  rw [Bool.eq_iff_iff, isJson_object, isJson_object]
  induction h with
  | nil => rfl
  | cons hm _ ih =>
    rw [List.forall_mem_cons, List.forall_mem_cons, ih]
    obtain ⟨-, same | related⟩ := hm
    · rw [same]
    · rw [hrel _ _ _ related]

theorem get_object (ms : Members) (name : Text) :
    (Value.object ms).get name = (Member.find? name ms).getD .undefined := by
  cases h : Member.find? name ms <;> simp [get, find?, members, h]

theorem InObjects.get (h : InObjects rel v v') (name : Text) :
    v.get name = v'.get name ∨ rel name (v.get name) (v'.get name) := by
  obtain ⟨h⟩ := h
  rw [get_object, get_object]
  induction h with
  | nil => exact .inl rfl
  | @cons m m' ms ms' hm _ ih =>
    obtain ⟨k, w⟩ := m
    obtain ⟨k', w'⟩ := m'
    obtain ⟨rfl, hm⟩ := hm
    rw [Member.find?, Member.find?]
    split
    · subst name
      exact hm
    · exact ih

theorem InObjects.isAbsent (h : InObjects rel v v') : v.isAbsent = false ∧ v'.isAbsent = false := by
  obtain ⟨-⟩ := h
  exact ⟨rfl, rfl⟩

theorem InObjects.isObject (h : InObjects rel v v') : v.isObject = true ∧ v'.isObject = true := by
  obtain ⟨-⟩ := h
  exact ⟨rfl, rfl⟩

end Value

/-! ## Hiding -/

namespace Redaction

variable {ps : List RedactionPath} {path : RedactionPath} {name : Text}

theorem leadsTo_name (name : Text) : (PathStep.name name).leadsTo name = true := beq_self_eq_true name

theorem mem_below {step : PathStep} (h : step :: path ∈ ps) (leads : step.leadsTo name = true) :
    path ∈ below name ps := by
  apply List.mem_filterMap.2
  refine ⟨step :: path, h, ?_⟩
  simp [leads]

theorem isSelected_of_path (names : List Text)
    (leads : List.Forall₂ (fun step name => PathStep.leadsTo step name = true) path names)
    (h : path ∈ ps) : isSelected (names.foldl (fun ps name => below name ps) ps) = true := by
  induction leads generalizing ps with
  | nil => exact List.contains_iff_mem.2 h
  | cons first _ ih => exact ih (mem_below h first)

/-- Hiding removes every difference between objects that a path leads to, or that it removes below. -/
theorem hide_inObjects {rel : Text → Value → Value → Prop} {v v' : Value} (h : Value.InObjects rel v v')
    (hrel : ∀ name w w', rel name w w' →
      isSelected (below name ps) = true ∨ hide (below name ps) w = hide (below name ps) w') :
    hide ps v = hide ps v' := by
  obtain ⟨h⟩ := h
  rw [hide, hide]
  congr 1
  induction h with
  | nil => rfl
  | @cons m m' ms ms' hm _ ih =>
    obtain ⟨k, w⟩ := m
    obtain ⟨k', w'⟩ := m'
    obtain ⟨rfl, hm⟩ := hm
    rw [hideMembers, hideMembers, ih]
    obtain rfl | related := hm
    · rfl
    · obtain selected | same := hrel k w w' related
      · simp only [selected, if_true]
      · rw [same]

end Redaction

/-! ## Credentials -/

def credentialNames : List Text := ["secretAccessKey", "sessionToken"]

/-- Two values of a member with one of some names. A response is refused for what is not JSON data,
    which shows, so both of them are JSON data or neither is. -/
def Secret (names : List Text) (name : Text) (v v' : Value) : Prop :=
  name ∈ names ∧ v.isJson = v'.isJson

theorem secret_text {names : List Text} {name : Text} (h : name ∈ names) (s t : Text) :
    Secret names name (.text s) (.text t) := by
  refine ⟨h, ?_⟩
  calc (Value.text s).isJson = true := rfl
    _ = (Value.text t).isJson := rfl

/-- Two contexts that differ in the values of credentials alone, directly in the context or, for some of
    the names, directly in an object member of it. -/
def ContextsAlike (nested : List Text) : Value → Value → Prop :=
  Value.InObjects fun name v v' =>
    Secret credentialNames name v v' ∨ Value.InObjects (Secret nested) v v'

/-- Two responses that differ in their contexts alone, and these in credentials. -/
def ResponsesAlike (nested : List Text) : Value → Value → Prop :=
  Value.InObjects fun name v v' => name = "callbackContext" ∧ ContextsAlike nested v v'

/-- The names of credentials that are hidden in an object member of a context. -/
def hiddenNested : List Text := ["secretAccessKey"]

variable {nested : List Text}

theorem ContextsAlike.isJson {v v' : Value} (h : ContextsAlike nested v v') : v.isJson = v'.isJson := by
  apply Value.InObjects.isJson h
  rintro name w w' (⟨-, same⟩ | inner)
  · exact same
  · apply inner.isJson
    rintro name' u u' ⟨-, same⟩
    exact same

/-- **Hiding removes all credentials of a context that some path leads to**: those directly in it, and of
    those in an object member of it the ones that are hidden there. -/
theorem ContextsAlike.hide_eq {v v' : Value} (h : ContextsAlike hiddenNested v v') :
    Redaction.hide (Redaction.below "callbackContext" Redaction.paths) v =
      Redaction.hide (Redaction.below "callbackContext" Redaction.paths) v' := by
  apply Redaction.hide_inObjects h
  rintro name w w' (⟨named, -⟩ | inner)
  -- directly in the context both names are on the list, with a star for the context
  · left
    have path : [.any, .name name] ∈ Redaction.paths := by
      rcases List.mem_cons.1 named with rfl | named
      · decide
      · obtain rfl := List.mem_singleton.1 named
        decide
    exact Redaction.isSelected_of_path ["callbackContext", name]
      (.cons rfl (.cons (Redaction.leadsTo_name name) .nil)) path
  · right
    apply Redaction.hide_inObjects inner
    rintro name' u u' ⟨named, -⟩
    left
    -- below a member of the context only this name is
    obtain rfl := List.mem_singleton.1 named
    have path : [.name "callbackContext", .any, .name "secretAccessKey"] ∈ Redaction.paths := by decide
    exact Redaction.isSelected_of_path ["callbackContext", name, "secretAccessKey"]
      (.cons rfl (.cons rfl (.cons rfl .nil))) path

/-! ## The check of a response -/

/-- Two events of one status; those in progress differ in the credentials of their contexts alone. -/
inductive Event.Alike (nested : List Text) : Event → Event → Prop where
  | success (e e' : SuccessEvent) : Alike nested (.success e) (.success e')
  | failed (e e' : FailedEvent) : Alike nested (.failed e) (.failed e')
  | inProgress {e e' : InProgressEvent}
      (context : e.callbackContext = e'.callbackContext ∨
        ContextsAlike nested e.callbackContext e'.callbackContext)
      (delay : e.callbackDelaySeconds = e'.callbackDelaySeconds) :
      Alike nested (.inProgress e) (.inProgress e')

theorem Event.Alike.refl (event : Event) : event.Alike nested event := by
  cases event with
  | success e => exact .success e e
  | failed e => exact .failed e e
  | inProgress e => exact .inProgress (.inl rfl) rfl

theorem Event.Alike.status {event event' : Event} (h : event.Alike nested event') :
    event.status = event'.status := by
  cases h <;> rfl

namespace Envelope

/-- Two verdicts on responses that are alike: both rejected, or both accepted with the same warnings. -/
inductive VerdictsAlike (nested : List Text) : Except EventError Report → Except EventError Report → Prop where
  | rejected (e e' : EventError) : VerdictsAlike nested (.error e) (.error e')
  | accepted {event event' : Event} (h : event.Alike nested event') (warnings : List Warning) :
      VerdictsAlike nested (.ok ⟨event, warnings⟩) (.ok ⟨event', warnings⟩)

theorem VerdictsAlike.refl (verdict : Except EventError Report) : VerdictsAlike nested verdict verdict := by
  cases verdict with
  | error e => exact .rejected e e
  | ok report => exact .accepted (.refl report.event) report.warnings

variable {raw raw' : Value}

theorem get_alike (h : ResponsesAlike nested raw raw') (name : Text) (hn : name ≠ "callbackContext") :
    raw.get name = raw'.get name := by
  obtain same | ⟨named, -⟩ := Value.InObjects.get h name
  · exact same
  · exact absurd named hn

theorem context_alike (h : ResponsesAlike nested raw raw') :
    raw.get "callbackContext" = raw'.get "callbackContext" ∨
      ContextsAlike nested (raw.get "callbackContext") (raw'.get "callbackContext") :=
  (Value.InObjects.get h "callbackContext").imp_right And.right

theorem contextAbsent_alike (h : ResponsesAlike nested raw raw') :
    (raw.get "callbackContext").isAbsent = (raw'.get "callbackContext").isAbsent := by
  obtain same | alike := context_alike h
  · rw [same]
  · rw [alike.isAbsent.1, alike.isAbsent.2]

theorem contextOf_alike (h : ResponsesAlike nested raw raw') :
    contextOf raw = contextOf raw' ∨ ContextsAlike nested (contextOf raw) (contextOf raw') := by
  obtain same | alike := context_alike h
  · left
    rw [contextOf, contextOf, same]
  · right
    obtain ⟨there, there'⟩ := alike.isAbsent
    simpa [contextOf, Value.present?, there, there'] using alike

theorem objectIssues_alike (h : ResponsesAlike nested raw raw') :
    objectIssues raw "callbackContext" = objectIssues raw' "callbackContext" := by
  obtain same | alike := context_alike h
  · rw [objectIssues, objectIssues, same]
  · obtain ⟨there, there'⟩ := alike.isAbsent
    obtain ⟨object, object'⟩ := alike.isObject
    simp [objectIssues, Value.present?, there, there', Value.isJsonObject, object, object', alike.isJson]

theorem issues_alike (h : ResponsesAlike nested raw raw') : issues raw = issues raw' := by
  have plain : isAwaitable raw = isAwaitable raw' := by
    rw [isAwaitable, isAwaitable, get_alike h "then" (by decide), get_alike h "catch" (by decide)]
  have text (name : Text) (hn : name ≠ "callbackContext") : textIssues raw name = textIssues raw' name := by
    rw [textIssues, textIssues, get_alike h name hn]
  have value (name : Text) (hn : name ≠ "callbackContext") : valueIssues raw name = valueIssues raw' name := by
    rw [valueIssues, valueIssues, get_alike h name hn]
  have list (name : Text) (hn : name ≠ "callbackContext") : listIssues raw name = listIssues raw' name := by
    rw [listIssues, listIssues, get_alike h name hn]
  rw [issues, issues, plain, memberIssues, memberIssues, objectIssues_alike h, text "message" (by decide),
    text "errorCode" (by decide), text "nextToken" (by decide), value "resourceModel" (by decide),
    list "resourceModels" (by decide)]

theorem terminalWarnings_alike (h : ResponsesAlike nested raw raw') (s : Status) :
    terminalWarnings raw s = terminalWarnings raw' s := by
  rw [terminalWarnings, terminalWarnings, contextAbsent_alike h,
    get_alike h "callbackDelaySeconds" (by decide)]

theorem report_alike (h : ResponsesAlike nested raw raw') (s : Status) :
    VerdictsAlike nested (Envelope.report raw s) (Envelope.report raw' s) := by
  have code : text? raw "errorCode" = text? raw' "errorCode" := by
    rw [text?, text?, get_alike h "errorCode" (by decide)]
  cases s with
  | success =>
    simp only [Envelope.report, successReport, code, terminalWarnings_alike h]
    exact .accepted (.success _ _) _
  | failed =>
    simp only [Envelope.report, code]
    split
    · simp only [failedReport, terminalWarnings_alike h]
      exact .accepted (.failed _ _) _
    · exact .rejected _ _
  | inProgress =>
    have accepted (delay : Option Double) : VerdictsAlike nested
        (.ok ⟨.inProgress ⟨details raw, contextOf raw, delay⟩, []⟩)
        (.ok ⟨.inProgress ⟨details raw', contextOf raw', delay⟩, []⟩) := by
      refine .accepted ?_ []
      exact .inProgress (contextOf_alike h) rfl
    have delay := get_alike h "callbackDelaySeconds" (by decide)
    simp only [Envelope.report, delay]
    split
    · exact accepted none
    · split
      · exact accepted _
      · exact .rejected _ _

/-- **The check of a response does not see the credentials in its context.** -/
theorem check_alike (h : ResponsesAlike nested raw raw') :
    VerdictsAlike nested (check raw) (check raw') := by
  obtain ⟨object, object'⟩ := Value.InObjects.isObject h
  have status : status? raw = status? raw' := by
    rw [status?, status?, get_alike h "status" (by decide)]
  simp only [check, object, object', status, issues_alike h, Bool.not_true, Bool.false_eq_true, if_false]
  split
  · exact .rejected _ _
  · split
    · exact report_alike h _
    · exact .rejected _ _

end Envelope

end Lifecycle
