import Lifecycle.Proofs.Json.Order
import Lifecycle.Proofs.Json.Path
import Lifecycle.Proofs.Number.ReadBack

/- Trees and what is read for their text.

   A tree lists the members of every object as an object shows them, each name once, and
   has no leaf without a JSON text. Only its leaves can change when it is printed and read
   again (`parse?_print`): a double that is not finite is read as null, a whole number
   beyond 2^53 - 1 as an exact number, and a negative zero as zero. -/
namespace Lifecycle

variable {α β : Type} {v : Value} {ms : Members} {items : List Value} {P Q : Value → Prop}
  {f g : Value → Value} {indent : Text} {level : Nat}

/-! ## Listed members -/

/-- Members as an object shows them: each name once, and indices first. -/
structure Member.Listed (ms : List (Text × α)) : Prop where
  nodup : (ms.map Prod.fst).Nodup
  arranged : (arrange ms).map Prod.fst = ms.map Prod.fst

instance (ms : List (Text × α)) : Decidable (Member.Listed ms) :=
  decidable_of_iff ((ms.map Prod.fst).Nodup ∧ (Member.arrange ms).map Prod.fst = ms.map Prod.fst)
    ⟨fun h => ⟨h.1, h.2⟩, fun h => ⟨h.nodup, h.arranged⟩⟩

namespace Member.Listed

theorem ofMembers (ms : List (Text × α)) : Listed (arrange (lastWins ms)) where
  nodup := nodup_arrange (nodup_lastWins ms)
  arranged := by rw [arrange_arrange]

theorem map {ms : List (Text × α)} (h : Listed ms) (f : α → β) :
    Listed (ms.map fun m => (m.1, f m.2)) := by
  have hnames (ms : List (Text × α)) : (ms.map fun m => (m.1, f m.2)).map Prod.fst = ms.map Prod.fst := by
    rw [List.map_map]
    rfl
  constructor
  · rw [hnames]
    exact h.nodup
  · rw [arrange_map, hnames, hnames, h.arranged]

theorem object (h : Listed ms) : Value.ofMembers ms = .object ms := by
  rw [Value.ofMembers, lastWins_of_nodup h.nodup, arrange_of_names h.nodup h.arranged.symm]

end Member.Listed

/-! ## Trees -/

namespace Value

/-- The JSON values without parts. -/
def isScalar : Value → Bool
  | .null => true
  | .bool _ => true
  | .number _ => true
  | .exact _ => true
  | .text _ => true
  | _ => false

/-- A value of listed objects, lists and scalars, where every scalar has a property. -/
inductive Tree (P : Value → Prop) : Value → Prop where
  | leaf {v : Value} (scalar : v.isScalar = true) (h : P v) : Tree P v
  | array {items : List Value} (h : ∀ v ∈ items, Tree P v) : Tree P (.array items)
  | object {ms : Members} (listed : Member.Listed ms) (h : ∀ m ∈ ms, Tree P m.2) : Tree P (.object ms)
  | error {message : Text} {ms : Members} (listed : Member.Listed ms) (h : ∀ m ∈ ms, Tree P m.2) :
      Tree P (.error message ms)

mutual

/-- The tree with other leaves in place of its own; an error becomes the object of its members. -/
def mapLeaves (f : Value → Value) : Value → Value
  | .array items => .array (mapItems f items)
  | .object ms => .object (mapMembers f ms)
  | .error _ ms => .object (mapMembers f ms)
  | v => f v

def mapItems (f : Value → Value) : List Value → List Value
  | [] => []
  | v :: rest => v.mapLeaves f :: mapItems f rest

def mapMembers (f : Value → Value) : List (Text × Value) → List (Text × Value)
  | [] => []
  | (name, v) :: rest => (name, v.mapLeaves f) :: mapMembers f rest

end

mutual

/-- Whether every object of a value lists its members as objects do. -/
def isListed : Value → Bool
  | .array items => itemsListed items
  | .object ms => decide (Member.Listed ms) && membersListed ms
  | .error _ ms => decide (Member.Listed ms) && membersListed ms
  | _ => true

def itemsListed : List Value → Bool
  | [] => true
  | v :: rest => v.isListed && itemsListed rest

def membersListed : List (Text × Value) → Bool
  | [] => true
  | (_, v) :: rest => v.isListed && membersListed rest

end

theorem itemsListed_eq (items : List Value) : itemsListed items = items.all isListed := by
  induction items with
  | nil => rfl
  | cons v items ih => rw [itemsListed, ih]; rfl

theorem membersListed_eq (ms : Members) : membersListed ms = ms.all fun m => m.2.isListed := by
  induction ms with
  | nil => rfl
  | cons m ms ih => rw [membersListed, ih]; rfl

theorem JsonData.tree (h : v.JsonData) (hl : v.isListed = true) : v.Tree fun leaf => leaf.isJson = true := by
  have members {ms : Members} (hl : (decide (Member.Listed ms) && membersListed ms) = true) :
      Member.Listed ms ∧ ∀ m ∈ ms, m.2.isListed = true := by
    rw [Bool.and_eq_true, membersListed_eq, List.all_eq_true] at hl
    exact ⟨of_decide_eq_true hl.1, hl.2⟩
  induction h with
  | null => exact .leaf rfl rfl
  | bool b => exact .leaf rfl rfl
  | number h => exact .leaf rfl (isJson_number.2 h)
  | exact l => exact .leaf rfl rfl
  | text s => exact .leaf rfl rfl
  | array _ ih =>
    rw [isListed, itemsListed_eq, List.all_eq_true] at hl
    exact .array fun v hv => ih v hv (hl v hv)
  | object _ ih =>
    obtain ⟨listed, hl⟩ := members hl
    exact .object listed fun m hm => ih m hm (hl m hm)
  | error _ ih =>
    obtain ⟨listed, hl⟩ := members hl
    exact .error listed fun m hm => ih m hm (hl m hm)

theorem mapItems_eq (f : Value → Value) (items : List Value) :
    mapItems f items = items.map (mapLeaves f) := by
  induction items with
  | nil => rfl
  | cons v items ih => rw [mapItems, ih]; rfl

theorem mapMembers_eq (f : Value → Value) (ms : Members) :
    mapMembers f ms = ms.map fun m => (m.1, m.2.mapLeaves f) := by
  induction ms with
  | nil => rfl
  | cons m ms ih => rw [mapMembers, ih]; rfl

theorem writtenItems_eq (items : List Value) : writtenItems items = items.map written := by
  induction items with
  | nil => rfl
  | cons v items ih => rw [writtenItems, ih]; rfl

theorem mapLeaves_scalar (h : v.isScalar = true) : v.mapLeaves f = f v := by
  cases v <;> first | rfl | cases h

theorem mapLeaves_array (f : Value → Value) (items : List Value) :
    (Value.array items).mapLeaves f = .array (items.map (mapLeaves f)) := by
  rw [mapLeaves, mapItems_eq]

theorem mapLeaves_object (f : Value → Value) (ms : Members) :
    (Value.object ms).mapLeaves f = .object (ms.map fun m => (m.1, m.2.mapLeaves f)) := by
  rw [mapLeaves, mapMembers_eq]

theorem mapLeaves_error (f : Value → Value) (message : Text) (ms : Members) :
    (Value.error message ms).mapLeaves f = (Value.object ms).mapLeaves f := by
  rw [mapLeaves, mapLeaves]

namespace Tree

/-- A property holds of all trees if lists and objects have it from their parts, and an error from the
    object of its members. -/
theorem induction {motive : ∀ v : Value, v.Tree P → Prop}
    (leaf : ∀ (v : Value) (scalar : v.isScalar = true) (h : P v), motive v (.leaf scalar h))
    (array : ∀ (items : List Value) (h : ∀ v ∈ items, v.Tree P), (∀ v hv, motive v (h v hv)) →
      motive (.array items) (.array h))
    (object : ∀ (ms : Members) (listed : Member.Listed ms) (h : ∀ m ∈ ms, m.2.Tree P),
      (∀ m hm, motive m.2 (h m hm)) → motive (.object ms) (.object listed h))
    (error : ∀ (message : Text) (ms : Members) (listed : Member.Listed ms) (h : ∀ m ∈ ms, m.2.Tree P),
      motive (.object ms) (.object listed h) → motive (.error message ms) (.error listed h))
    (h : v.Tree P) : motive v h := by
  induction h with
  | leaf scalar h => exact leaf _ scalar h
  | array h ih => exact array _ h ih
  | object listed h ih => exact object _ listed h ih
  | error listed h ih => exact error _ _ listed h (object _ listed h ih)

theorem mapLeaves_congr (h : v.Tree P) (hfg : ∀ v, P v → f v = g v) : v.mapLeaves f = v.mapLeaves g := by
  induction h using Tree.induction with
  | leaf v scalar h => rw [mapLeaves_scalar scalar, mapLeaves_scalar scalar, hfg v h]
  | array items _ ih =>
    rw [mapLeaves_array, mapLeaves_array]
    congr 1
    exact List.map_congr_left ih
  | object ms _ _ ih =>
    rw [mapLeaves_object, mapLeaves_object]
    congr 1
    apply List.map_congr_left
    intro m hm
    rw [ih m hm]
  | error message ms _ _ ih => rw [mapLeaves_error, mapLeaves_error, ih]

theorem isPrinted (h : v.Tree P) : v.isPrinted = true ∧ v.isFunction = false := by
  induction h using Tree.induction with
  | leaf v scalar _ => cases v <;> first | exact ⟨rfl, rfl⟩ | cases scalar
  | array items _ _ => exact ⟨rfl, rfl⟩
  | object ms _ _ ih =>
    have silent : Json.speaksForItself ms = false := not_speaksForItself fun m hm => (ih m hm).2
    exact ⟨by rw [Value.isPrinted, silent]; rfl, rfl⟩
  | error message ms _ _ ih => exact ⟨ih.1, rfl⟩

theorem mapLeaves (h : v.Tree P) (hf : ∀ v : Value, v.isScalar = true → P v → (f v).Tree Q) :
    (v.mapLeaves f).Tree Q := by
  induction h using Tree.induction with
  | leaf v scalar h =>
    rw [mapLeaves_scalar scalar]
    exact hf v scalar h
  | array items _ ih =>
    rw [mapLeaves_array]
    exact .array (List.forall_mem_map.2 ih)
  | object ms listed _ ih =>
    rw [mapLeaves_object]
    exact .object (listed.map _) (List.forall_mem_map.2 ih)
  | error message ms _ _ ih =>
    rw [mapLeaves_error]
    exact ih

end Tree

end Value

/-- **The value of a document is a tree.** -/
theorem Document.value_tree {exact : Bool} (null : P .null) (bool : ∀ b, P (.bool b))
    (number : ∀ l, P (numberValue exact l)) (text : ∀ s, P (.text s)) (d : Document) :
    (d.value exact).Tree P := by
  induction d using Document.induction with
  | null => exact .leaf rfl null
  | bool b => exact .leaf rfl (bool b)
  | number l =>
    refine .leaf ?_ (number l)
    rw [value, numberValue]
    split <;> rfl
  | text s => exact .leaf rfl (text s)
  | array ds ih =>
    rw [value, itemValues_eq]
    apply Value.Tree.array
    intro v hv
    obtain ⟨d, hd, rfl⟩ := List.mem_map.1 hv
    exact ih d hd
  | object ms ih =>
    rw [value, Value.ofMembers]
    refine .object (.ofMembers _) ?_
    intro m hm
    obtain ⟨d, hd, hv⟩ := mem_object.1 hm
    rw [← hv]
    exact ih (m.1, d) (Member.mem_of_last? hd)

/-! ## What is read for a leaf -/

namespace Value

/-- The leaf that is read for the text of a leaf. -/
def comesBack : Value → Value
  | .number x =>
    if x.isFinite then if x.isLarge then .exact x.literal else .number x.asWritten else .null
  | .exact l => Document.numberValue true l
  | v => v

theorem literal_comesBack {x : Double} (h : x.isFinite = true) :
    Document.numberValue true x.literal =
      if x.isLarge then .exact x.literal else .number x.asWritten := by
  rw [Document.numberValue]
  cases hl : x.isLarge with
  | true =>
    have hkept : x.literal.isSafe = false := by
      rw [← Bool.not_eq_true]
      intro hsafe
      have hnot := Double.isLarge_of_isSafe hsafe
      rw [Double.literal_toDouble h, Double.isLarge_asWritten, hl] at hnot
      cases hnot
    simp [hkept]
  | false => simp [Double.literal_isSafe h hl, Double.literal_toDouble h]

theorem written_scalar (h : v.isScalar = true) :
    v.written.value true = v.comesBack ∧ v.written.isConsistent = true := by
  cases v with
  | null => exact ⟨rfl, rfl⟩
  | bool b => exact ⟨rfl, rfl⟩
  | exact l => exact ⟨rfl, rfl⟩
  | text s => exact ⟨rfl, rfl⟩
  | number x =>
    rw [written, comesBack]
    split
    · rename_i hf
      exact ⟨literal_comesBack hf, rfl⟩
    · exact ⟨rfl, rfl⟩
  | _ => cases h

theorem comesBack_scalar (h : v.isScalar = true) : v.comesBack.isScalar = true := by
  cases v with
  | number x =>
    rw [comesBack]
    split
    · split <;> rfl
    · rfl
  | exact l =>
    rw [comesBack, Document.numberValue]
    split <;> rfl
  | _ => exact h

/-- A leaf other than a safe literal is printed like the one that is read for its text. -/
theorem textOf_comesBack (h : v.isScalar = true) (hv : ∀ l, v = .exact l → l.isSafe = false) :
    Json.textOf indent level v.comesBack = Json.textOf indent level v := by
  cases v with
  | exact l =>
    rw [comesBack, Document.numberValue, hv l rfl]
    rfl
  | number x =>
    rw [comesBack]
    split
    · rename_i hf
      split
      · rw [Json.textOf, Json.textOf, Json.render?, Json.render?, if_pos hf, Double.literal_text hf]
      · rw [Json.textOf, Json.textOf, Json.render?, Json.render?, Double.isFinite_asWritten,
          Double.toText_asWritten]
    · rename_i hf
      rw [Json.textOf, Json.textOf, Json.render?, Json.render?, if_neg hf]
  | _ => rfl

end Value

/-! ## What is read for a tree -/

namespace Document

theorem repeatsAgree_of_nodup {seen ms : Members} (h : ((seen ++ ms).map Prod.fst).Nodup) :
    repeatsAgree seen ms = true := by
  induction ms generalizing seen with
  | nil => rfl
  | cons m ms ih =>
    have hnew : m.1 ∉ seen.map Prod.fst := by
      rw [List.map_append, List.nodup_append] at h
      intro hm
      exact h.2.2 _ hm _ (List.mem_map_of_mem List.mem_cons_self) rfl
    rw [repeatsAgree, Member.find?_none hnew, Member.set_new hnew]
    apply ih
    simpa using h

theorem membersConsistent_eq (ms : List (Text × Document)) :
    membersConsistent ms = ms.all fun m => m.2.isConsistent := by
  induction ms with
  | nil => rfl
  | cons m ms ih => rw [membersConsistent, ih]; rfl

theorem itemsConsistent_eq (ds : List Document) : itemsConsistent ds = ds.all isConsistent := by
  induction ds with
  | nil => rfl
  | cons d ds ih => rw [itemsConsistent, ih]; rfl

end Document

namespace Value

/-- A tree is written as a document without repeated members, whose value is the tree again but for
    what becomes of its leaves. -/
theorem Tree.written_value (h : v.Tree P) :
    v.written.value true = v.mapLeaves comesBack ∧ v.written.isConsistent = true := by
  induction h using Tree.induction with
  | leaf v scalar _ =>
    rw [mapLeaves_scalar scalar]
    exact written_scalar scalar
  | array items _ ih =>
    rw [written, writtenItems_eq, Document.value, Document.itemValues_eq, Document.isConsistent,
      Document.itemsConsistent_eq, List.map_map, mapLeaves_array]
    constructor
    · congr 1
      exact List.map_congr_left fun v hv => (ih v hv).1
    · rw [List.all_eq_true, List.forall_mem_map]
      exact fun v hv => (ih v hv).2
  | object ms listed h ih =>
    have hvalues : Document.memberValues true (ms.map fun m => (m.1, m.2.written)) =
        ms.map fun m => (m.1, m.2.mapLeaves comesBack) := by
      rw [Document.memberValues_eq, List.map_map]
      apply List.map_congr_left
      intro m hm
      exact Prod.ext rfl (ih m hm).1
    have mapped := listed.map (Value.mapLeaves comesBack)
    rw [written_printed fun m hm => (h m hm).isPrinted.1, Document.value, Document.isConsistent, hvalues,
      mapLeaves_object]
    refine ⟨mapped.object, ?_⟩
    rw [Document.repeatsAgree_of_nodup (by simpa using mapped.nodup), Bool.and_true,
      Document.membersConsistent_eq, List.all_eq_true, List.forall_mem_map]
    exact fun m hm => (ih m hm).2
  | error message ms _ _ ih =>
    rw [mapLeaves_error]
    exact ih

end Value

namespace Json

theorem renderItems_eq (indent : Text) (level : Nat) (items : List Value) :
    renderItems indent level items = items.map (textOf indent level) := by
  induction items with
  | nil => rfl
  | cons v items ih => rw [renderItems_cons, ih]; rfl

theorem renderMembers_eq (h : ∀ m ∈ ms, m.2.isPrinted = true) : renderMembers indent level ms =
    ms.map fun m => quote m.1 ++ colon indent ++ textOf indent level m.2 := by
  induction ms with
  | nil => rfl
  | cons m ms ih =>
    rw [List.forall_mem_cons] at h
    rw [renderMembers_cons, if_pos h.1, ih h.2]
    rfl

theorem textOf_members (h : ∀ m ∈ ms, m.2.Tree P) : textOf indent level (.object ms) =
    if ms.isEmpty then ("\x7b\x7d" : Text) else bracketed indent level 0x7B 0x7D
      (ms.map fun m => quote m.1 ++ colon indent ++ textOf indent (level + 1) m.2) := by
  rw [textOf_object, Value.not_speaksForItself fun m hm => (h m hm).isPrinted.2,
    renderMembers_eq fun m hm => (h m hm).isPrinted.1]
  rfl

theorem textOf_mapLeaves (h : v.Tree P)
    (hscalar : ∀ v : Value, v.isScalar = true → P v → (f v).isScalar = true)
    (htext : ∀ (v : Value) (level : Nat), v.isScalar = true → P v →
      textOf indent level (f v) = textOf indent level v) (level : Nat) :
    textOf indent level (v.mapLeaves f) = textOf indent level v := by
  induction h using Value.Tree.induction generalizing level with
  | leaf v scalar h =>
    rw [Value.mapLeaves_scalar scalar]
    exact htext v level scalar h
  | array items _ ih =>
    rw [Value.mapLeaves_array, textOf_array, textOf_array, renderItems_eq, renderItems_eq, List.map_map,
      List.isEmpty_map]
    congr 2
    exact List.map_congr_left fun v hv => ih v hv (level + 1)
  | object ms _ h ih =>
    have mapped : ∀ m ∈ ms.map fun m => (m.1, m.2.mapLeaves f), m.2.Tree fun _ => True := by
      rw [List.forall_mem_map]
      intro m hm
      exact (h m hm).mapLeaves fun v hs hp => .leaf (hscalar v hs hp) trivial
    rw [Value.mapLeaves_object, textOf_members mapped, textOf_members h, List.map_map, List.isEmpty_map]
    congr 2
    apply List.map_congr_left
    intro m hm
    exact congrArg (quote m.1 ++ colon indent ++ ·) (ih m hm (level + 1))
  | error message ms _ _ ih =>
    rw [Value.mapLeaves_error, textOf_error]
    exact ih level

/-- **What is read for the text of a tree is the tree**, with each leaf as it comes back. -/
theorem parse?_print (hi : Blank indent) (h : v.Tree P) :
    parse? (print indent v) = some (v.mapLeaves Value.comesBack) := by
  rw [parse?, document?_print hi, Option.map_some, Document.toValue, h.written_value.2, h.written_value.1]

end Json

def Value.datum (v : Value) : Datum := v.written.datum Literal.value

theorem Value.Tree.datum_comesBack (h : v.Tree P) : (v.mapLeaves comesBack).datum = v.datum := by
  rw [← h.written_value.1, datum, Document.written_datum true _ (Document.value_exact_isJson _)]
  rfl

end Lifecycle
