import Lifecycle.Proofs.Json.Member
import Lifecycle.Proofs.Json.RoundTrip

/- What JSON text denotes.

   A datum is a JSON value apart from its spelling: a number is a rational number, and
   an object leads from names to data, whatever the order of its members. A document
   denotes a datum once every literal has its number; of repeated members the last one
   counts. The value that is read from a document is printed as a document that denotes
   the same datum (`written_datum`), where a literal keeps its own number unless it is
   read as a double that does not hold it. -/
namespace Lifecycle

/-- A JSON value apart from its spelling. -/
inductive Datum where
  | null
  | bool (b : Bool)
  | number (q : ℚ)
  | text (s : Text)
  | array (items : List Datum)
  | object (member : Text → Option Datum)

namespace Document

mutual

/-- The datum that a document denotes, with the number of every literal. -/
def datum (amount : Literal → ℚ) : Document → Datum
  | .null => .null
  | .bool b => .bool b
  | .number l => .number (amount l)
  | .text s => .text s
  | .array items => .array (itemData amount items)
  | .object ms => .object (memberDatum amount ms)

def itemData (amount : Literal → ℚ) : List Document → List Datum
  | [] => []
  | d :: rest => d.datum amount :: itemData amount rest

/-- The datum of the last member of a name. -/
def memberDatum (amount : Literal → ℚ) : List (Text × Document) → Text → Option Datum
  | [], _ => none
  | (k, d) :: rest, name =>
    (memberDatum amount rest name).or (if k = name then some (d.datum amount) else none)

end

theorem memberDatum_eq (amount : Literal → ℚ) (ms : List (Text × Document)) (name : Text) :
    memberDatum amount ms name = (Member.last? name ms).map (datum amount) := by
  induction ms with
  | nil => rfl
  | cons m ms ih =>
    rw [memberDatum, ih, Member.last?]
    cases Member.last? name ms with
    | some d => rfl
    | none =>
      rw [Option.map_none, Option.none_or, Option.none_or]
      split <;> rfl

end Document

/-- The number that a literal keeps: its own if it is read exactly or safe as a double, otherwise
    the decimal that its nearest double is written as. -/
def Literal.kept (exact : Bool) (l : Literal) : ℚ :=
  if exact || l.isSafe then l.value else l.toDouble.written

namespace Value

variable {v : Value} {ms : Members} {items : List Value}

/-! ## JSON data -/

theorem nonJsonMember?_eq_none : nonJsonMember? ms = none ↔ ∀ m ∈ ms, m.2.isJson = true := by
  induction ms with
  | nil => simp [nonJsonMember?]
  | cons m ms ih =>
    rw [nonJsonMember?, List.forall_mem_cons, ← ih]
    simp only [isJson]
    cases nonJsonPath? m.2 <;> simp

theorem nonJsonItem?_eq_none (index : Nat) :
    nonJsonItem? index items = none ↔ ∀ v ∈ items, v.isJson = true := by
  induction items generalizing index with
  | nil => simp [nonJsonItem?]
  | cons v items ih =>
    rw [nonJsonItem?, List.forall_mem_cons, ← ih (index + 1)]
    simp only [isJson]
    cases nonJsonPath? v <;> simp

theorem isJson_object : (Value.object ms).isJson = true ↔ ∀ m ∈ ms, m.2.isJson = true := by
  rw [isJson, nonJsonPath?, Option.isNone_iff_eq_none, nonJsonMember?_eq_none]

theorem isJson_error {m : Text} : (Value.error m ms).isJson = true ↔ ∀ m ∈ ms, m.2.isJson = true := by
  rw [isJson, nonJsonPath?, Option.isNone_iff_eq_none, nonJsonMember?_eq_none]

theorem isJson_array : (Value.array items).isJson = true ↔ ∀ v ∈ items, v.isJson = true := by
  rw [isJson, nonJsonPath?, Option.isNone_iff_eq_none, nonJsonItem?_eq_none]

theorem isJson_number {x : Double} : (Value.number x).isJson = true ↔ x.isFinite = true := by
  rw [isJson, nonJsonPath?]
  cases x.isFinite <;> simp

/-- JSON data: what has no parts is null, a boolean, a finite number, an exact one or a text, and all
    parts of lists and objects are JSON data. -/
inductive JsonData : Value → Prop where
  | null : JsonData .null
  | bool (b : Bool) : JsonData (.bool b)
  | number {x : Double} (h : x.isFinite = true) : JsonData (.number x)
  | exact (l : Literal) : JsonData (.exact l)
  | text (s : Text) : JsonData (.text s)
  | array {items : List Value} (h : ∀ v ∈ items, JsonData v) : JsonData (.array items)
  | object {ms : Members} (h : ∀ m ∈ ms, JsonData m.2) : JsonData (.object ms)
  | error {message : Text} {ms : Members} (h : ∀ m ∈ ms, JsonData m.2) : JsonData (.error message ms)

mutual

theorem jsonData_of_isJson : ∀ v : Value, v.isJson = true → v.JsonData
  | .null, _ => .null
  | .bool b, _ => .bool b
  | .number _, h => .number (isJson_number.1 h)
  | .exact l, _ => .exact l
  | .text s, _ => .text s
  | .array items, h => .array (items_jsonData items (isJson_array.1 h))
  | .object ms, h => .object (members_jsonData ms (isJson_object.1 h))
  | .error _ ms, h => .error (members_jsonData ms (isJson_error.1 h))

theorem items_jsonData : ∀ items : List Value, (∀ v ∈ items, v.isJson = true) →
    ∀ v ∈ items, v.JsonData
  | [], _ => List.forall_mem_nil _
  | v :: rest, h => by
    rw [List.forall_mem_cons] at h ⊢
    exact ⟨jsonData_of_isJson v h.1, items_jsonData rest h.2⟩

theorem members_jsonData : ∀ ms : Members, (∀ m ∈ ms, m.2.isJson = true) → ∀ m ∈ ms, m.2.JsonData
  | [], _ => List.forall_mem_nil _
  | (_, v) :: rest, h => by
    rw [List.forall_mem_cons] at h ⊢
    exact ⟨jsonData_of_isJson v h.1, members_jsonData rest h.2⟩

end

/-- **The check for JSON data looks at every part.** -/
theorem isJson_iff (v : Value) : v.isJson = true ↔ v.JsonData := by
  refine ⟨jsonData_of_isJson v, ?_⟩
  intro h
  induction h with
  | null => rfl
  | bool b => rfl
  | number h => exact isJson_number.2 h
  | exact l => rfl
  | text s => rfl
  | array _ ih => exact isJson_array.2 ih
  | object _ ih => exact isJson_object.2 ih
  | error _ ih => exact isJson_error.2 ih

instance : DecidablePred JsonData := fun v => decidable_of_iff _ (isJson_iff v)

theorem not_speaksForItself (h : ∀ m ∈ ms, m.2.isFunction = false) : Json.speaksForItself ms = false := by
  unfold Json.speaksForItself
  split
  · rename_i hf
    cases h _ (Member.mem_of_find? hf)
  · rfl

theorem isFunction_of_isJson (h : v.isJson = true) : v.isFunction = false := by
  cases v with
  | function => cases h
  | _ => rfl

theorem isFunction_of_isPrinted (h : v.isPrinted = true) : v.isFunction = false := by
  cases v with
  | function => cases h
  | _ => rfl

theorem isPrinted_of_isJson (h : v.isJson = true) : v.isPrinted = true := by
  have members {ms : Members} (h : ∀ m ∈ ms, m.2.isJson = true) : Json.speaksForItself ms = false :=
    not_speaksForItself fun m hm => isFunction_of_isJson (h m hm)
  cases v with
  | object ms => simp [isPrinted, members (isJson_object.1 h)]
  | error m ms => simp [isPrinted, members (isJson_error.1 h)]
  | undefined => cases h
  | function => cases h
  | symbol => cases h
  | _ => rfl

theorem writtenMembers_eq (h : ∀ m ∈ ms, m.2.isPrinted = true) :
    writtenMembers ms = ms.map fun m => (m.1, m.2.written) := by
  induction ms with
  | nil => rfl
  | cons m ms ih =>
    rw [List.forall_mem_cons] at h
    rw [writtenMembers, if_pos h.1, ih h.2]
    rfl

theorem written_printed (h : ∀ m ∈ ms, m.2.isPrinted = true) :
    (Value.object ms).written = .object (ms.map fun m => (m.1, m.2.written)) := by
  have hms := not_speaksForItself fun m hm => isFunction_of_isPrinted (h m hm)
  rw [written, hms, writtenMembers_eq h]
  rfl

theorem written_object (h : (Value.object ms).isJson = true) :
    (Value.object ms).written = .object (ms.map fun m => (m.1, m.2.written)) :=
  written_printed fun m hm => isPrinted_of_isJson (isJson_object.1 h m hm)

end Value

/-! ## From a document to a printed value -/

namespace Document

variable {exact : Bool}

theorem memberValues_eq (exact : Bool) (ms : List (Text × Document)) :
    memberValues exact ms = ms.map fun m => (m.1, m.2.value exact) := by
  induction ms with
  | nil => rfl
  | cons m ms ih => rw [memberValues, ih]; rfl

theorem find?_object (exact : Bool) (ms : List (Text × Document)) (name : Text) :
    Member.find? name (Member.arrange (Member.lastWins (memberValues exact ms))) =
      (Member.last? name ms).map (value exact) := by
  rw [Member.find?_arrange_lastWins, memberValues_eq, Member.last?_map]

theorem numberValue_datum {l : Literal} (h : (numberValue exact l).isJson = true) :
    (numberValue exact l).written.datum Literal.value = .number (l.kept exact) := by
  unfold numberValue at h ⊢
  split
  · rename_i he
    simp only [Bool.and_eq_true] at he
    simp [Value.written, datum, Literal.kept, he.1]
  · rename_i he
    rw [if_neg he, Value.isJson_number] at h
    rw [Value.written, if_pos h, datum, Double.literal_value h, Literal.kept]
    split
    · rename_i hk
      have hsafe : l.isSafe = true := by
        cases exact <;> simp_all
      rw [(Literal.written_of_safe hsafe).2]
    · rfl

mutual

/-- **The value of a document is printed as one that denotes the same datum**, with the numbers
    that the literals keep. -/
theorem written_datum (exact : Bool) : ∀ d : Document, (d.value exact).isJson = true →
    (d.value exact).written.datum Literal.value = d.datum (Literal.kept exact)
  | .null, _ => rfl
  | .bool _, _ => rfl
  | .number _, h => numberValue_datum h
  | .text _, _ => rfl
  | .array ds, h => by
    rw [value, Value.isJson_array] at h
    rw [value, Value.written, datum, datum, written_itemData exact ds h]
  | .object ms, h => by
    rw [value, Value.ofMembers] at h ⊢
    have hms := Value.isJson_object.1 h
    rw [Value.written_object h, datum, datum]
    congr 1
    -- what an object leads to under a name is what its last member of that name denotes
    funext name
    have hnodup := Member.nodup_arrange (Member.nodup_lastWins (memberValues exact ms))
    rw [memberDatum_eq, memberDatum_eq, Member.last?_map, Member.last?_eq_find? hnodup, find?_object,
      Option.map_map, Option.map_map]
    cases hl : Member.last? name ms with
    | none => rfl
    | some d =>
      have hfound : Member.find? name (Member.arrange (Member.lastWins (memberValues exact ms))) =
          some (d.value exact) := by rw [find?_object, hl]; rfl
      exact congrArg some (written_memberDatum exact ms (name, d) (Member.mem_of_last? hl)
        (hms _ (Member.mem_of_find? hfound)))

theorem written_itemData (exact : Bool) : ∀ ds : List Document,
    (∀ v ∈ itemValues exact ds, v.isJson = true) →
    itemData Literal.value (Value.writtenItems (itemValues exact ds)) =
      itemData (Literal.kept exact) ds
  | [], _ => rfl
  | d :: ds, h => by
    rw [itemValues, List.forall_mem_cons] at h
    rw [itemValues, Value.writtenItems, itemData, itemData, written_datum exact d h.1,
      written_itemData exact ds h.2]

theorem written_memberDatum (exact : Bool) : ∀ ms : List (Text × Document), ∀ m ∈ ms,
    (m.2.value exact).isJson = true →
    (m.2.value exact).written.datum Literal.value = m.2.datum (Literal.kept exact)
  | [], m, hm, _ => by cases hm
  | (name, d) :: ms, m, hm, h => by
    obtain rfl | hm := List.mem_cons.1 hm
    · exact written_datum exact d h
    · exact written_memberDatum exact ms m hm h

end

end Document

end Lifecycle
