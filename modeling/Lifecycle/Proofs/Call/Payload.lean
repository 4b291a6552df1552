import Lifecycle.Call.Reply
import Lifecycle.Proofs.Json.Datum
import Lifecycle.Proofs.Json.Wire

/- Requests and replies as JSON text.

   A request whose parts are JSON data is sent as a text that denotes an object of four
   members, one for each part (`document?_bytes`). A reply that is taken for a response
   has the text of a document, and the response is its value (`document?_of_response`). -/
namespace Lifecycle

/-! ## Requests -/

namespace Datum

/-- The object of members in which every name stands once. -/
def ofMembers (ms : List (Text × Datum)) : Datum := .object fun name => Member.find? name ms

def payload (action : Action) (token : Text) (resourceRequest callbackContext : Datum) : Datum :=
  ofMembers [("action", .text action.name), ("bearerToken", .text token),
    ("resourceRequest", resourceRequest), ("callbackContext", callbackContext)]

end Datum

theorem Document.datum_object (amount : Literal → ℚ) {ms : List (Text × Document)}
    (hn : (ms.map Prod.fst).Nodup) :
    (Document.object ms).datum amount = .ofMembers (ms.map fun m => (m.1, m.2.datum amount)) := by
  rw [datum, Datum.ofMembers]
  congr 1
  funext name
  rw [memberDatum_eq, Member.last?_eq_find? hn, Member.find?_map]

namespace Request

/-- Whether every part of a request is JSON data. -/
def IsJson (q : Request) : Prop := q.resourceRequest.isJson = true ∧ q.callbackContext.isJson = true

theorem payload_isJson {q : Request} (h : q.IsJson) : q.payload.isJson = true := by
  rw [payload, Value.isJson_object]
  intro m hm
  simp only [List.mem_cons, List.not_mem_nil, or_false] at hm
  obtain rfl | rfl | rfl | rfl := hm
  · rfl
  · rfl
  · exact h.1
  · exact h.2

theorem payloadNames_nodup :
    (["action", "bearerToken", "resourceRequest", "callbackContext"] : List Text).Nodup := by
  decide

/-- **The bytes of a request hold its parts**, each under its own name. -/
theorem document?_bytes {q : Request} (h : q.IsJson) :
    ∃ sent, Json.document? (Utf8.decode q.bytes) = some sent ∧
      sent.datum Literal.value = .payload q.action q.bearerToken
        (q.resourceRequest.written.datum Literal.value)
        (q.callbackContext.written.datum Literal.value) := by
  have hblank : Json.Blank [] := by
    intro u hu
    cases hu
  refine ⟨q.payload.written, Json.document?_decode hblank q.payload, ?_⟩
  have hjson := payload_isJson h
  rw [payload] at hjson ⊢
  rw [Value.written_object hjson]
  exact Document.datum_object _ (show (List.map Prod.fst (List.map _ _)).Nodup from payloadNames_nodup)

end Request

theorem RequestBody.check_eq_ok {body : Value} : check body = .ok () ↔ body.isJsonObject = true := by
  rw [check, Value.isJsonObject, Value.isJson]
  cases body.isObject with
  | false => simp
  | true => cases body.nonJsonPath? <;> simp

/-- An operation begins with every body that is an object of JSON data, and with no other. -/
theorem Plan.build_eq_ok {target : Target} {tokens : TokenSource} {action : Action} {body : Value}
    {built : Plan × TokenSource} : build target tokens action body = .ok built ↔
      body.isJsonObject = true ∧
        built = (⟨target, ⟨action, body, .object [], tokens.next.1⟩⟩, tokens.next.2) := by
  rw [← RequestBody.check_eq_ok, build]
  cases RequestBody.check body with
  | error error => simp
  | ok u => simp [eq_comm]

/-! ## Replies -/

theorem Reply.response_eq {reply : Reply} (h : reply.functionError.getD [] = []) :
    reply.response = responseOf reply.text := by
  unfold response
  split
  · rename_i hraised
    rw [hraised] at h
    cases h
  · rfl

theorem Reply.document?_of_response {reply : Reply} {v : Value} (h : reply.response = .ok v) :
    ∃ d, Json.document? reply.text = some d ∧ v = d.toValue := by
  have hof : responseOf reply.text = .ok v := by
    unfold response at h
    split at h
    · cases h
    · exact h
  unfold responseOf at hof
  split at hof
  · cases hof
  · rw [Json.parse?] at hof
    cases hd : Json.document? reply.text with
    | none =>
      rw [hd] at hof
      cases hof
    | some d =>
      rw [hd] at hof
      simp only [Option.map_some] at hof
      split at hof
      · exact ⟨d, rfl, (Except.ok.inj hof).symm⟩
      · cases hof

end Lifecycle
