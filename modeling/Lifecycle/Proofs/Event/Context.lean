import Lifecycle.Proofs.Event.Accepted
import Lifecycle.Proofs.Json.Datum

/- The context that an accepted response hands over, as a datum.

   The context is read off the text of the response: it is what the member
   `callbackContext` denotes, or the object without members if there is none or it is
   null (`Datum.context`). The check that accepts a response makes sure that the context
   the run goes on with is that datum and can be printed as it is. -/
namespace Lifecycle

namespace Datum

def empty : Datum := .object fun _ => none

def member? (name : Text) : Datum → Option Datum
  | .object member => member name
  | _ => none

/-- The number that a datum is, if it is one. -/
def number? : Datum → Option ℚ
  | .number q => some q
  | _ => none

/-- The context in a response: one that is absent or null is empty. -/
def context (response : Datum) : Datum :=
  match response.member? "callbackContext" with
  | none => .empty
  | some .null => .empty
  | some d => d

end Datum

namespace Document

variable {exact : Bool}

/-- The members of an object of a document, as the value of the object shows them. -/
theorem get_object (exact : Bool) (ms : List (Text × Document)) (name : Text) :
    ((Document.object ms).value exact).get name =
      ((Member.last? name ms).map (value exact)).getD .undefined := by
  rw [← find?_object]
  rfl

theorem isAbsent_value {d : Document} (h : (d.value exact).isAbsent = true) : d = .null := by
  cases d with
  | null => rfl
  | number l =>
    rw [value, numberValue] at h
    split at h <;> cases h
  | _ => cases h

theorem isObject_value {d : Document} (h : (d.value exact).isObject = true) :
    ∃ ms, d = .object ms := by
  cases d with
  | object ms => exact ⟨ms, rfl⟩
  | number l =>
    rw [value, numberValue] at h
    split at h <;> cases h
  | _ => cases h

end Document

namespace Envelope

theorem contextOf_absent {raw : Value} (h : (raw.get "callbackContext").isAbsent = true) :
    contextOf raw = .object [] := by
  rw [contextOf, Value.present?, if_pos h]
  rfl

theorem contextOf_present {raw : Value} (hi : issues raw = [])
    (h : (raw.get "callbackContext").isAbsent = false) :
    contextOf raw = raw.get "callbackContext" ∧ (raw.get "callbackContext").isJson = true := by
  have hp : (raw.get "callbackContext").present? = some (raw.get "callbackContext") := by
    rw [Value.present?, h]
    rfl
  rw [issues] at hi
  split at hi
  · cases hi
  simp only [memberIssues, List.append_eq_nil_iff] at hi
  obtain ⟨⟨⟨⟨_, hobject⟩, _⟩, _⟩, _⟩ := hi
  rw [objectIssues, hp] at hobject
  simp only at hobject
  split at hobject
  · rename_i hj
    rw [Value.isJsonObject, Bool.and_eq_true] at hj
    exact ⟨by rw [contextOf, hp]; rfl, hj.2⟩
  · cases hobject

/-- **The context of an accepted response is the datum its text holds**, and is JSON data. -/
theorem contextOf_datum {d : Document} {report : Report} (h : check d.toValue = .ok report) :
    (contextOf d.toValue).isJson = true ∧
      (contextOf d.toValue).written.datum Literal.value =
        (d.datum (Literal.kept d.isConsistent)).context := by
  obtain ⟨ho, hi, -⟩ := check_cases h
  obtain ⟨ms, rfl⟩ := Document.isObject_value ho
  have hget := Document.get_object (Document.object ms).isConsistent ms "callbackContext"
  change ((Document.object ms).toValue).get "callbackContext" = _ at hget
  rw [Datum.context, Document.datum, Datum.member?, Document.memberDatum_eq]
  cases hl : Member.last? "callbackContext" ms with
  | none =>
    rw [hl] at hget
    rw [contextOf_absent (by rw [hget]; rfl)]
    exact ⟨rfl, rfl⟩
  | some c =>
    rw [hl] at hget
    change _ = c.value _ at hget
    by_cases habsent : (c.value (Document.object ms).isConsistent).isAbsent = true
    · rw [contextOf_absent (by rw [hget]; exact habsent), Document.isAbsent_value habsent]
      exact ⟨rfl, rfl⟩
    · have hpresent := contextOf_present hi (by rw [hget]; simpa using habsent)
      rw [hget] at hpresent
      rw [hpresent.1]
      refine ⟨hpresent.2, ?_⟩
      rw [Document.written_datum _ c hpresent.2]
      -- a context that is there is no null, so the datum is taken as it is
      cases c with
      | null => exact absurd rfl habsent
      | _ => rfl

end Envelope

end Lifecycle
