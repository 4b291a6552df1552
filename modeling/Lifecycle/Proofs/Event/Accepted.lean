import Lifecycle.Event.Envelope

/- What an accepted response reports.

   The check is opened once here: `check_cases` says of every accepted response that it
   is an object whose members are well typed, and which report it got. Of a response in
   progress the report depends on the members `callbackContext` and
   `callbackDelaySeconds`, which `contextOf` and `delayOf` read. -/
namespace Lifecycle.Envelope

/-- The context that a response hands over: one that is absent or null is empty. -/
def contextOf (raw : Value) : Value := ((raw.get "callbackContext").present?).getD (.object [])

/-- The delay that a response asks for, unless it is absent or null. -/
def delayOf (raw : Value) : Option Double :=
  (raw.get "callbackDelaySeconds").present?.bind delaySeconds?

def progressOf (raw : Value) : InProgressEvent := ⟨details raw, contextOf raw, delayOf raw⟩

variable {raw : Value} {report : Report}

theorem inProgressReport_eq :
    inProgressReport raw (delayOf raw) = ⟨.inProgress (progressOf raw), []⟩ := rfl

theorem report_cases {s : Status} (h : Envelope.report raw s = .ok report) :
    report = successReport raw ∨ (∃ u code, report = failedReport raw (u :: code)) ∨
      report = ⟨.inProgress (progressOf raw), []⟩ := by
  cases s with
  | success => exact .inl (Except.ok.inj h).symm
  | failed =>
    simp only [Envelope.report] at h
    split at h
    · exact .inr (.inl ⟨_, _, (Except.ok.inj h).symm⟩)
    · cases h
  | inProgress =>
    refine .inr (.inr ?_)
    rw [← inProgressReport_eq, delayOf]
    simp only [Envelope.report] at h
    cases hd : (raw.get "callbackDelaySeconds").present? with
    | none =>
      rw [hd] at h
      cases h
      rfl
    | some v =>
      simp only [hd] at h
      cases hs : delaySeconds? v with
      | none => simp [hs, reject] at h
      | some seconds =>
        simp only [hs] at h
        cases h
        simp [hs]

theorem check_cases (h : check raw = .ok report) :
    raw.isObject = true ∧ issues raw = [] ∧
      (report = successReport raw ∨ (∃ u code, report = failedReport raw (u :: code)) ∨
        report = ⟨.inProgress (progressOf raw), []⟩) := by
  unfold check at h
  split at h
  · cases h
  · rename_i ho
    split at h
    · cases h
    · split at h
      · rename_i hi
        exact ⟨by simpa using ho, hi, report_cases h⟩
      · cases h

/-- The report of a response in progress is its own event, without warnings. -/
theorem check_inProgress {e : InProgressEvent} {ws : List Warning}
    (h : check raw = .ok ⟨.inProgress e, ws⟩) : e = progressOf raw ∧ ws = [] := by
  obtain ⟨-, -, h | ⟨u, code, h⟩ | h⟩ := check_cases h
  · simp [successReport] at h
  · simp [failedReport] at h
  · simpa using h

end Lifecycle.Envelope
