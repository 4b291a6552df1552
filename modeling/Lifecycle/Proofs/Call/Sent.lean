import Lifecycle.Proofs.Call.Payload
import Lifecycle.Proofs.Json.Tree

/- What the bytes of a request say.

   The bytes are read as the payload, member by member and in order, where a number is the
   decimal number that it was written as (`parse?_bytes`). So they determine the action, the
   token and the data of both objects (`bytes_determine_request`). They do not determine
   which number was held for a decimal: a double beyond 2^53 - 1 is written as the shortest
   decimal next to it, which is also the text of an exact number
   (`large_double_sent_as_shortest`). -/
namespace Lifecycle

namespace Request

/-- A request as a program holds it: both parts are objects of JSON data, and every object in them
    lists its members as objects do. -/
structure IsSendable (q : Request) : Prop where
  resourceRequest : q.resourceRequest.isJsonObject = true
  callbackContext : q.callbackContext.isJsonObject = true
  listed : q.resourceRequest.isListed = true ∧ q.callbackContext.isListed = true

variable {q q' : Request}

namespace IsSendable

theorem resource_tree (h : q.IsSendable) : q.resourceRequest.Tree fun leaf => leaf.isJson = true :=
  ((Value.isJson_iff _).1 (Bool.and_eq_true_iff.1 h.resourceRequest).2).tree h.listed.1

theorem context_tree (h : q.IsSendable) : q.callbackContext.Tree fun leaf => leaf.isJson = true :=
  ((Value.isJson_iff _).1 (Bool.and_eq_true_iff.1 h.callbackContext).2).tree h.listed.2

theorem payload_tree (h : q.IsSendable) : q.payload.Tree fun leaf => leaf.isJson = true := by
  refine .object ⟨payloadNames_nodup, rfl⟩ ?_
  intro m hm
  simp only [List.mem_cons, List.not_mem_nil, or_false] at hm
  obtain rfl | rfl | rfl | rfl := hm
  · exact .leaf rfl rfl
  · exact .leaf rfl rfl
  · exact h.resource_tree
  · exact h.context_tree

end IsSendable

/-- **The bytes of a request are read as its payload.** -/
theorem parse?_bytes (h : q.IsSendable) : Json.parse? (Utf8.decode q.bytes) =
    some (.object [("action", .text q.action.name), ("bearerToken", .text q.bearerToken),
      ("resourceRequest", q.resourceRequest.mapLeaves .comesBack),
      ("callbackContext", q.callbackContext.mapLeaves .comesBack)]) := by
  have hblank : Json.Blank [] := nofun
  obtain ⟨hvalue, hconsistent⟩ := h.payload_tree.written_value
  rw [bytes, Json.compact, Json.parse?, Json.document?_decode hblank, Option.map_some, Document.toValue,
    hconsistent, hvalue, payload, Value.mapLeaves_object]
  rfl

theorem name_injective {a b : Action} (h : a.name = b.name) : a = b := by
  cases a <;> cases b <;> first | rfl | exact absurd h (by decide)

/-- **The bytes of a request determine it as data.** They are read as an object of the four members
    in their order: the action, the token, and both objects with their members in order, each of the
    same datum as the request's. Another request of the same bytes has the same action, the same
    token, and objects that are read alike and are the same data. -/
theorem bytes_determine_request (h : q.IsSendable) :
    Json.parse? (Utf8.decode q.bytes) =
        some (.object [("action", .text q.action.name), ("bearerToken", .text q.bearerToken),
          ("resourceRequest", q.resourceRequest.mapLeaves .comesBack),
          ("callbackContext", q.callbackContext.mapLeaves .comesBack)]) ∧
      (q.resourceRequest.mapLeaves .comesBack).datum = q.resourceRequest.datum ∧
      (q.callbackContext.mapLeaves .comesBack).datum = q.callbackContext.datum ∧
      ∀ q' : Request, q'.IsSendable → q'.bytes = q.bytes →
        q'.action = q.action ∧ q'.bearerToken = q.bearerToken ∧
        q'.resourceRequest.mapLeaves .comesBack = q.resourceRequest.mapLeaves .comesBack ∧
        q'.callbackContext.mapLeaves .comesBack = q.callbackContext.mapLeaves .comesBack ∧
        q'.resourceRequest.datum = q.resourceRequest.datum ∧
        q'.callbackContext.datum = q.callbackContext.datum := by
  have hr := h.resource_tree.datum_comesBack
  have hc := h.context_tree.datum_comesBack
  refine ⟨parse?_bytes h, hr, hc, ?_⟩
  intro q' h' hbytes
  have hread := parse?_bytes h'
  rw [hbytes, parse?_bytes h] at hread
  simp only [Option.some.injEq, Value.object.injEq, List.cons.injEq, Prod.mk.injEq, Value.text.injEq,
    true_and, and_true] at hread
  obtain ⟨haction, htoken, hresource, hcontext⟩ := hread
  refine ⟨(name_injective haction).symm, htoken.symm, hresource.symm, hcontext.symm, ?_, ?_⟩
  · rw [← hr, hresource, h'.resource_tree.datum_comesBack]
  · rw [← hc, hcontext, h'.context_tree.datum_comesBack]

/-- The double 2^60 is written as a decimal next to it, and comes back as that. -/
theorem large_comesBack : (Value.number (.ofNat (2 ^ 60))).mapLeaves .comesBack =
    .exact ⟨false, 1152921504606847000, [], none⟩ := by
  have hfinite : (Double.ofNat (2 ^ 60)).isFinite = true := by decide +kernel
  have hlarge : (Double.ofNat (2 ^ 60)).isLarge = true := by decide +kernel
  have hliteral : (Double.ofNat (2 ^ 60)).literal = ⟨false, 1152921504606847000, [], none⟩ := by
    decide +kernel
  rw [Value.mapLeaves_scalar rfl, Value.comesBack, if_pos hfinite, if_pos hlarge, hliteral]

/-- A request with halves of pairs in its token and its names, an index among the names, and a double
    beyond 2^53 - 1. -/
theorem odd_request_read :
    let q : Request := ⟨.create, .object [("1", .null), ([0xD800], .number (.ofNat (2 ^ 60)))],
      .object [("__proto__", .array [.bool true, .text [0xDC00]])], [0xDBFF, 0x22]⟩
    q.IsSendable ∧ Json.parse? (Utf8.decode q.bytes) = some (.object [("action", .text "CREATE"),
      ("bearerToken", .text [0xDBFF, 0x22]),
      ("resourceRequest", .object [("1", .null), ([0xD800], .exact ⟨false, 1152921504606847000, [], none⟩)]),
      ("callbackContext", .object [("__proto__", .array [.bool true, .text [0xDC00]])])]) := by
  intro q
  have hsendable : q.IsSendable := ⟨by decide +kernel, by decide +kernel, by decide +kernel⟩
  have hresource : q.resourceRequest.mapLeaves .comesBack = .object [("1", .null),
      ([0xD800], .exact ⟨false, 1152921504606847000, [], none⟩)] := by
    rw [Value.mapLeaves_object, List.map_cons, List.map_cons, large_comesBack]
    rfl
  refine ⟨hsendable, ?_⟩
  rw [(bytes_determine_request hsendable).1, hresource]
  rfl

/-- A request with the double 2^60 has the bytes of one with a greater exact number, and is read as
    that. -/
theorem large_double_sent_as_shortest :
    let l : Literal := ⟨false, 1152921504606847000, [], none⟩
    let q (n : Value) : Request := ⟨.create, .object [("n", n)], .object [], "token-1"⟩
    (q (.number (.ofNat (2 ^ 60)))).IsSendable ∧ (q (.exact l)).IsSendable ∧
      (Double.ofNat (2 ^ 60)).toInt? = some 1152921504606846976 ∧ l.value = 1152921504606847000 ∧
      (q (.number (.ofNat (2 ^ 60)))).bytes = (q (.exact l)).bytes ∧
      Json.parse? (Utf8.decode (q (.number (.ofNat (2 ^ 60)))).bytes) =
        some (.object [("action", .text "CREATE"), ("bearerToken", .text "token-1"),
          ("resourceRequest", .object [("n", .exact l)]), ("callbackContext", .object [])]) := by
  intro l q
  have hsendable : (q (.number (.ofNat (2 ^ 60)))).IsSendable :=
    ⟨by decide +kernel, by decide +kernel, by decide +kernel⟩
  have hresource : (q (.number (.ofNat (2 ^ 60)))).resourceRequest.mapLeaves .comesBack =
      .object [("n", .exact l)] := by
    rw [Value.mapLeaves_object, List.map_cons, large_comesBack]
    rfl
  refine ⟨hsendable, ⟨by decide +kernel, by decide +kernel, by decide +kernel⟩, by decide +kernel,
    by decide +kernel, by decide +kernel, ?_⟩
  rw [parse?_bytes hsendable, hresource]
  rfl

end Request

end Lifecycle
