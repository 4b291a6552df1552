import Lifecycle.Proofs.Call.Agreement

/- Which parsed texts pass which checks.

   The value of a text is an object exactly if the text is one. It is JSON data exactly if
   the numbers of the text stand, which they do unless one of them is beyond the doubles and
   the text is inconsistent. The readers differ in what they ask for:
   a request has to be an object of JSON data, a reply an object, and a saved response JSON
   data (`parsed_text_checked`). -/
namespace Lifecycle

variable {t : Text} {v : Value}

theorem Json.isJson_iff (h : parse? t = some v) : v.isJson = true ↔ NumbersStand t := by
  obtain ⟨d, hd, rfl⟩ := Option.map_eq_some_iff.1 h
  exact (numbersStand_iff hd).symm

theorem Json.isObject_iff (h : parse? t = some v) :
    v.isObject = true ↔ ∃ ms, document? t = some (.object ms) := by
  obtain ⟨d, hd, rfl⟩ := Option.map_eq_some_iff.1 h
  rw [hd]
  constructor
  · intro ho
    obtain ⟨ms, rfl⟩ := Document.isObject_value ho
    exact ⟨ms, rfl⟩
  · rintro ⟨ms, hms⟩
    cases hms
    rfl

/-- The command takes a loaded file for no JSON document exactly if its value is no JSON data. -/
theorem Command.validateEvent_loaded (path : Text) (v : Value) :
    validateEvent path (.loaded v) = .misuse (.ofMessage ("Not a JSON document: " ++ path)) ↔
      ¬ v.isJson = true := by
  rw [validateEvent, validateBody]
  cases v.isJson with
  | false => exact iff_of_true rfl Bool.false_ne_true
  | true =>
    refine iff_of_false ?_ (not_not_intro rfl)
    intro h
    -- a complaint about the event names the file in its details
    cases hc : Envelope.check v with
    | error error =>
      rw [hc] at h
      cases h
    | ok report =>
      rw [hc] at h
      cases h

/-- **What a parsed text is accepted for.** Its value is JSON data if and only if the numbers of the
    text stand, and an object if and only if the text is one. So an operation begins with it if it is
    an object whose numbers stand, a call takes it for a response if it is an object, and the command
    that checks a saved response takes it for a JSON document if its numbers stand. -/
theorem parsed_text_checked (h : Json.parse? t = some v) :
    (v.isJson = true ↔ NumbersStand t) ∧
    (v.isObject = true ↔ ∃ ms, Json.document? t = some (.object ms)) ∧
    (∀ target tokens action, (∃ built, Plan.build target tokens action v = .ok built) ↔
      (∃ ms, Json.document? t = some (.object ms)) ∧ NumbersStand t) ∧
    (∀ reply : Reply, reply.functionError.getD [] = [] → reply.text = t →
      (reply.response = .ok v ↔ ∃ ms, Json.document? t = some (.object ms))) ∧
    (∀ files path, Member.find? path files = some (.content t) →
      LoadedFile.load files path = .ok (.loaded v) ∧
      (Command.validateEvent path (.loaded v) =
        .misuse (.ofMessage ("Not a JSON document: " ++ path)) ↔ ¬ NumbersStand t)) := by
  have hjson := Json.isJson_iff h
  have hobject := Json.isObject_iff h
  refine ⟨hjson, hobject, ?_, ?_, ?_⟩
  · intro target tokens action
    rw [← hjson, ← hobject, ← Bool.and_eq_true, ← Value.isJsonObject]
    constructor
    · rintro ⟨built, hbuilt⟩
      exact (Plan.build_eq_ok.1 hbuilt).1
    · intro hbody
      exact ⟨_, Plan.build_eq_ok.2 ⟨hbody, rfl⟩⟩
  · intro reply raised htext
    obtain ⟨d, hd, rfl⟩ := Option.map_eq_some_iff.1 h
    rw [Reply.response_eq raised, htext, ← hobject, Reply.responseOf_eq hd]
    cases d.toValue.isObject <;> simp
  · intro files path saved
    refine ⟨?_, ?_⟩
    · rw [LoadedFile.load, saved, LoadedFile.ofEntry, h]
    · rw [Command.validateEvent_loaded, hjson]

/-- An object that repeats a member with the value it had, and has a number beyond the doubles, is
    accepted throughout. -/
theorem large_number_checked :
    let t : Text := "\x7b\"a\":1,\"a\":1.0,\"m\":1e400\x7d"
    ∃ v, Json.parse? t = some v ∧ v.isJson = true ∧ v.isObject = true ∧
      ∃ built, Plan.build ⟨[], []⟩ .numbered .create v = .ok built := by
  intro t
  have hread : (Json.document? t).map (fun d => (d.isConsistent, d.toValue.isObject)) =
      some (true, true) := by decide +kernel
  obtain ⟨d, hd, heq⟩ := Option.map_eq_some_iff.1 hread
  obtain ⟨hconsistent, ho⟩ := Prod.mk.inj heq
  have hv : Json.parse? t = some d.toValue := by rw [Json.parse?, hd]; rfl
  have hstand : NumbersStand t := by
    intro d' hd'
    rw [← Option.some.inj (hd.symm.trans hd')]
    exact .inl hconsistent
  obtain ⟨hjson, hobject, hbuild, -, -⟩ := parsed_text_checked hv
  exact ⟨d.toValue, hv, hjson.2 hstand, ho, (hbuild _ _ _).2 ⟨hobject.1 ho, hstand⟩⟩

/-- An object that is inconsistent, and has a number beyond the doubles, is parsed
    and taken for a response, but no operation begins with it, and the command takes it for no JSON
    document. -/
theorem repeated_member_refused :
    let t : Text := "\x7b\"a\":1,\"a\":2,\"m\":1e400\x7d"
    ∃ v, Json.parse? t = some v ∧ v.isJson = false ∧ Reply.responseOf t = .ok v ∧
      Plan.build ⟨[], []⟩ .numbered .create v = .error (.malformedRequest
        "Request body is not plain JSON at m: Infinity is not a JSON value") ∧
      Command.validateEvent "e.json" (.loaded v) = .misuse (.ofMessage "Not a JSON document: e.json") := by
  intro t
  have hread : (Json.document? t).map (fun d => (d.toValue.isObject, d.toValue.isJson,
      RequestBody.check d.toValue, Command.validateEvent "e.json" (.loaded d.toValue))) =
        some (true, false, .error (.malformedRequest
          "Request body is not plain JSON at m: Infinity is not a JSON value"),
          .misuse (.ofMessage "Not a JSON document: e.json")) := by decide +kernel
  obtain ⟨d, hd, heq⟩ := Option.map_eq_some_iff.1 hread
  simp only [Prod.mk.injEq] at heq
  obtain ⟨ho, hj, hcheck, hcommand⟩ := heq
  refine ⟨d.toValue, by rw [Json.parse?, hd]; rfl, hj, ?_, ?_, hcommand⟩
  · rw [Reply.responseOf_eq hd, if_pos ho]
  · rw [Plan.build, hcheck]

end Lifecycle
