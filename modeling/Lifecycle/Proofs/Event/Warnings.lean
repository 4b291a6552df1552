import Lifecycle.Proofs.Event.Contract

/- Contract warnings, and the members that they call ignored.

   A response that is accepted may still depart from the contract, in four ways. It is reported with one
   warning for each way in which it does, in a fixed order (`warnings_eq`). Three of the warnings say that
   a member is ignored, and so it is: neither the demands on the response of a finished operation nor the
   event that it holds look at that member, so the response without it meets the contract as well and
   holds the same event (`WellTyped.without`, `Holds.without`). -/
namespace Lifecycle

namespace Value

def without (names : List Text) : Value → Value
  | .object ms => .object (ms.filter fun m => !names.contains m.1)
  | .error message ms => .error message (ms.filter fun m => !names.contains m.1)
  | v => v

variable {names : List Text} {name : Text}

theorem isObject_without (names : List Text) (v : Value) : (v.without names).isObject = v.isObject := by
  cases v <;> rfl

theorem find?_members_without (names : List Text) (v : Value) (name : Text) :
    Member.find? name (v.without names).members =
      if names.contains name then none else Member.find? name v.members := by
  have filtered (ms : Members) : Member.find? name (ms.filter fun m => !names.contains m.1) =
      if names.contains name then none else Member.find? name ms := by
    rw [Member.find?_filter fun n => !names.contains n]
    cases names.contains name <;> rfl
  cases v with
  | object ms => exact filtered ms
  | error message ms => exact filtered ms
  | _ => exact (ite_self none).symm

theorem get_without (v : Value) (h : name ∉ names) : (v.without names).get name = v.get name := by
  have found := find?_members_without names v name
  rw [if_neg (by simpa using h)] at found
  unfold get find?
  rw [found]
  cases v with
  | error message ms => cases Member.find? name (error message ms).members <;> rfl
  | _ => rfl

theorem get_removed (v : Value) (h : name ∈ names) (hm : name ≠ "message") :
    (v.without names).get name = .undefined := by
  have found := find?_members_without names v name
  rw [if_pos (by simpa using h)] at found
  unfold get find?
  rw [found]
  cases v with
  | error message ms => simp only [without, if_neg hm, Option.getD_none]
  | _ => rfl

end Value

/-- The kinds of warnings in the order in which they are reported. -/
def WarningCode.order : List WarningCode :=
  [.unknownErrorCode, .unexpectedErrorCode, .unexpectedCallbackContext, .unexpectedCallbackDelay]

namespace Envelope

/-! ## Deviations -/

/-- Whether a response that holds an event departs from the contract in the way a warning is about. -/
def deviates (raw : Value) (event : Event) : WarningCode → Bool
  | .unknownErrorCode =>
    match event with
    | .failed e => !ErrorCode.catalogue.contains e.errorCode
    | _ => false
  | .unexpectedErrorCode => event.status == .success && !(raw.get "errorCode").isAbsent
  | .unexpectedCallbackContext => event.status.isTerminal && !(raw.get "callbackContext").isAbsent
  | .unexpectedCallbackDelay => event.status.isTerminal && !(raw.get "callbackDelaySeconds").isAbsent

/-- The warning of a kind about a response that holds an event. -/
def warningOf (raw : Value) (event : Event) : WarningCode → Warning
  | .unknownErrorCode => .unknownCode ((text? raw "errorCode").getD [])
  | .unexpectedErrorCode => .errorCode ((text? raw "errorCode").getD [])
  | .unexpectedCallbackContext => .callbackContext event.status
  | .unexpectedCallbackDelay => .callbackDelay event.status

/-- The deviations of a response that holds an event, in the order in which they are reported. -/
def deviations (raw : Value) (event : Event) : List WarningCode :=
  WarningCode.order.filter (deviates raw event)

variable {raw : Value} {s : Status} {report : Report} {event : Event} {name : Text}

theorem warningOf_code (raw : Value) (event : Event) (c : WarningCode) :
    (warningOf raw event c).code = c := by
  cases c <;> rfl

/-- A report in its two parts: what the code of the response is warned about, and then what any finished
    operation is. -/
theorem warnings_of_terminal (terminal : event.status.isTerminal = true) {coded : List Warning}
    (h : coded = ([.unknownErrorCode, .unexpectedErrorCode].filter (deviates raw event)).map
      (warningOf raw event)) :
    coded ++ terminalWarnings raw event.status = (deviations raw event).map (warningOf raw event) := by
  have any : terminalWarnings raw event.status =
      ([.unexpectedCallbackContext, .unexpectedCallbackDelay].filter (deviates raw event)).map
        (warningOf raw event) := by
    simp only [terminalWarnings, List.filter_cons, List.filter_nil, deviates, terminal, Bool.true_and]
    cases (raw.get "callbackContext").isAbsent <;> cases (raw.get "callbackDelaySeconds").isAbsent <;> rfl
  rw [h, any, ← List.map_append, ← List.filter_append]
  rfl

theorem WellTyped.isAbsent_code (h : WellTyped raw s) :
    (raw.get "errorCode").isAbsent = (text? raw "errorCode").isNone := by
  have coded := h.text "errorCode" (by decide)
  cases hc : text? raw "errorCode" with
  | none =>
    rw [hc] at coded
    exact present?_eq_none coded.symm
  | some code =>
    rw [hc] at coded
    rw [present?_eq_some coded.symm]
    rfl

theorem successReport_warnings (typed : WellTyped raw .success) : (successReport raw).warnings =
    (deviations raw (successReport raw).event).map (warningOf raw (successReport raw).event) := by
  refine @warnings_of_terminal raw (successReport raw).event rfl _ ?_
  simp only [List.filter_cons, List.filter_nil, deviates, typed.isAbsent_code]
  cases hc : text? raw "errorCode" with
  | none => rfl
  | some code =>
    simp [successReport, Event.status, warningOf, hc]

theorem failedReport_warnings {code : Text} (coded : text? raw "errorCode" = some code) :
    (failedReport raw code).warnings =
      (deviations raw (failedReport raw code).event).map (warningOf raw (failedReport raw code).event) := by
  refine @warnings_of_terminal raw (failedReport raw code).event rfl _ ?_
  simp only [List.filter_cons, List.filter_nil, deviates, failedReport, ErrorCode.isKnown]
  obtain known | unknown := Bool.eq_false_or_eq_true (ErrorCode.catalogue.contains code)
  · simp only [known]
    rfl
  · simp only [unknown]
    simp [Event.status, warningOf, coded]

/-- **The warnings of an accepted response are its deviations**, one for each, in one order. -/
theorem warnings_eq (h : check raw = .ok report) :
    report.warnings = (deviations raw report.event).map (warningOf raw report.event) := by
  obtain ⟨typed, holds⟩ := accepted_of_check h
  obtain ⟨-, -, reported | ⟨u, code, reported⟩ | reported⟩ := check_cases h <;> subst reported
  · exact successReport_warnings typed
  · exact failedReport_warnings (by rw [text?, holds.special.1]; rfl)
  · rfl

/-! ## Ignored members -/

/-- The members that are ignored in the response of an operation of some status. -/
def ignored : Status → List Text
  | .success => ["callbackContext", "callbackDelaySeconds", "errorCode"]
  | .failed => ["callbackContext", "callbackDelaySeconds"]
  | .inProgress => []

/-- The members that are looked at whatever the status is. -/
def common : List Text :=
  ["status", "then", "catch", "message", "resourceModel", "resourceModels", "nextToken"]

theorem not_ignored (s : Status) : ∀ name ∈ common, name ∉ ignored s := by
  cases s <;> decide

/-- A response without the members that its status ignores. -/
def stripped (raw : Value) (s : Status) : Value := raw.without (ignored s)

theorem get_stripped (h : name ∉ ignored s) : (stripped raw s).get name = raw.get name :=
  raw.get_without h

theorem get_common (h : name ∈ common) : (stripped raw s).get name = raw.get name :=
  get_stripped (not_ignored s name h)

theorem get_ignored (h : name ∈ ignored s) : (stripped raw s).get name = .undefined := by
  refine raw.get_removed h ?_
  rintro rfl
  cases s <;> revert h <;> decide

theorem memberParts_stripped (raw : Value) (s : Status) (name : Text) (type : MemberType) :
    memberParts (stripped raw s) name type =
      if name ∈ ignored s then [] else memberParts raw name type := by
  by_cases h : name ∈ ignored s
  · rw [memberParts, get_ignored h, if_pos h]
    rfl
  · rw [memberParts, get_stripped h, if_neg h]
    rfl

theorem WellTyped.stripped (h : WellTyped raw s) : WellTyped (stripped raw s) s where
  object := (raw.isObject_without _).trans h.object
  status := (get_common (by decide)).trans h.status
  plain := by
    rw [isAwaitable, get_common (by decide), get_common (by decide)]
    exact h.plain
  typed := by
    intro p hp
    obtain ⟨m, hm, hp⟩ := List.mem_flatMap.1 hp
    rw [memberParts_stripped] at hp
    split at hp
    · cases hp
    · exact h.typed p (List.mem_flatMap.2 ⟨m, hm, hp⟩)

theorem Holds.stripped (h : Holds raw event) (terminal : event.status.isTerminal = true) :
    Holds (stripped raw event.status) event where
  message := by
    rw [get_common (by decide)]
    exact h.message
  resourceModel := by
    rw [get_common (by decide)]
    exact h.resourceModel
  resourceModels := by
    rw [get_common (by decide)]
    exact h.resourceModels
  nextToken := by
    rw [get_common (by decide)]
    exact h.nextToken
  special := by
    cases event with
    | success e => trivial
    | failed e => exact ⟨(get_stripped (s := .failed) (by decide)).trans h.special.1, h.special.2⟩
    | inProgress e => cases terminal

theorem deviates_stripped (terminal : event.status.isTerminal = true) (c : WarningCode) :
    deviates (stripped raw event.status) event c = (c == .unknownErrorCode && deviates raw event c) := by
  have gone {name : Text} (h : name ∈ ignored event.status) :
      ((stripped raw event.status).get name).isAbsent = true := by
    rw [get_ignored h]
    rfl
  have finished {name : Text} (h : ∀ s : Status, s.isTerminal = true → name ∈ ignored s) :
      (event.status.isTerminal && !((stripped raw event.status).get name).isAbsent) = false := by
    rw [gone (h _ terminal), Bool.not_true, Bool.and_false]
  cases c with
  | unknownErrorCode => cases event <;> rfl
  | unexpectedErrorCode =>
    cases event with
    | success e =>
      have coded : Text.ofString "errorCode" ∈ ignored .success := by decide
      rw [deviates, gone coded]
      rfl
    | failed e => rfl
    | inProgress e => rfl
  | unexpectedCallbackContext => exact finished (by rintro (_ | _ | _) <;> decide)
  | unexpectedCallbackDelay => exact finished (by rintro (_ | _ | _) <;> decide)

theorem warningOf_stripped (unknown : deviates raw event .unknownErrorCode = true) :
    warningOf (stripped raw event.status) event .unknownErrorCode =
      warningOf raw event .unknownErrorCode := by
  cases event with
  | failed e =>
    have coded : (stripped raw .failed).get "errorCode" = raw.get "errorCode" := get_stripped (by decide)
    rw [warningOf, warningOf, text?, text?, ← coded]
    rfl
  | _ => cases unknown

theorem warnings_stripped (terminal : event.status.isTerminal = true) :
    (deviations (stripped raw event.status) event).map (warningOf (stripped raw event.status) event) =
      ((deviations raw event).map (warningOf raw event)).filter fun w => w.code == .unknownErrorCode := by
  have left : deviations (stripped raw event.status) event =
      (deviations raw event).filter fun c => c == .unknownErrorCode := by
    rw [deviations, deviations, List.filter_filter]
    exact List.filter_congr fun c _ => deviates_stripped terminal c
  rw [List.filter_map, left]
  refine (List.map_congr_left ?_).trans (congrArg _ (List.filter_congr ?_))
  · intro c hc
    obtain ⟨hc, unknown⟩ := List.mem_filter.1 hc
    obtain rfl := eq_of_beq unknown
    exact warningOf_stripped (List.of_mem_filter hc)
  · intro c _
    rw [Function.comp, warningOf_code]

/-- **An accepted response is warned of its deviations, and what it is warned to be ignored is ignored.**
    Each way in which it departs from the contract has its warning, in one order and once; and without
    the ignored members the response of a finished operation is accepted with the same event, and at
    most the warning of an unknown code stays. -/
theorem warned_and_ignored (h : check raw = .ok report) :
    report.warnings = (deviations raw report.event).map (warningOf raw report.event) ∧
      (report.event.status.isTerminal = true → check (stripped raw report.event.status) =
        .ok ⟨report.event, report.warnings.filter fun w => w.code == .unknownErrorCode⟩) := by
  refine ⟨warnings_eq h, ?_⟩
  intro terminal
  obtain ⟨typed, holds⟩ := accepted_of_check h
  -- the contract is met without the ignored members, and it allows one event only
  have same := (Ruling.accepted typed.stripped (holds.stripped terminal)).check_eq
  cases hs : check (stripped raw report.event.status) with
  | error e =>
    rw [hs] at same
    cases same
  | ok kept =>
    rw [hs] at same
    have event : kept.event = report.event := Except.ok.inj same
    have warned := warnings_eq hs
    rw [event, warnings_stripped terminal, ← warnings_eq h] at warned
    rw [← event, ← warned]

/-- A failed operation may name a code of its own, and then a context and a delay that is none: it is
    warned of all three, in this order, and its event is that of the code alone. -/
theorem failed_ignores :
    let raw : Value := .object [("callbackDelaySeconds", .text "soon"), ("callbackContext", .object []),
      ("errorCode", .text "Oops"), ("status", .text "FAILED")]
    let event : Event := .failed ⟨⟨none, none, none, none⟩, "Oops"⟩
    check raw = .ok ⟨event, [.unknownCode "Oops", .callbackContext .failed, .callbackDelay .failed]⟩ ∧
      check (.object [("errorCode", .text "Oops"), ("status", .text "FAILED")]) =
        .ok ⟨event, [.unknownCode "Oops"]⟩ := by
  intro raw event
  have h : check raw =
    .ok ⟨event, [.unknownCode "Oops", .callbackContext .failed, .callbackDelay .failed]⟩ := rfl
  exact ⟨h, (warned_and_ignored h).2 rfl⟩

end Envelope

end Lifecycle
