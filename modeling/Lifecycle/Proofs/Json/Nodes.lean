import Lifecycle.Proofs.Json.Datum
import Lifecycle.Proofs.Json.Lexeme

/- The nodes of a value, and the first of them that is no JSON data.

   A value is listed with its parts, each under the path that leads to it: first the value itself, then
   part after part with the parts of each (`nodes_eq`). The check for JSON data is a search through this
   list. It stops at the first node that is not data of its own kind (`nonJsonPath?_first`), and it finds
   one unless there is none (`isJson_iff_nodes`). The path it returns is later followed from the top; at
   every step that leads to the same part, since a list has an index for each of its items and an object
   each name once (`follow_of_mem_nodes`). -/
namespace Lifecycle

namespace Member

theorem index?_ofNat {i : Nat} (h : i < Nat.pow 2 32 - 1) : index? (Text.ofNat i) = some i := by
  have read (ds : List (Fin 10)) : (Double.digitText ds).mapM Text.digit? = some ds := by
    induction ds with
    | nil => rfl
    | cons d ds ih =>
      rw [Double.digitText, List.map_cons, List.mapM_cons, digit?_ofDigit, ← Double.digitText, ih]
      rfl
  have short : (Decimal.digitsOf i).length ≤ 10 := by
    obtain rfl | pos := i.eq_zero_or_pos
    · decide
    · have reached := Decimal.pow_digitCount_le pos
      have below : 10 ^ (Decimal.digitCount i - 1) < 10 ^ 10 :=
        reached.trans_lt (h.trans (by decide))
      have := (Nat.pow_lt_pow_iff_right (by decide)).1 below
      rw [← Decimal.digitCount_eq]
      omega
  -- only zero is spelled with a zero in front, and then there is nothing after it
  have unpadded : ∃ d ds, Decimal.digitsOf i = d :: ds ∧ ¬ (d.val = 0 ∧ ds ≠ []) := by
    obtain rfl | pos := i.eq_zero_or_pos
    · exact ⟨_, _, Decimal.digitsOf_small (by decide), fun padded => padded.2 rfl⟩
    · obtain ⟨d, ds, spelled, hd⟩ := Decimal.digitsOf_head pos
      exact ⟨d, ds, spelled, fun padded => hd (Fin.ext padded.1)⟩
  obtain ⟨d, ds, spelled, unpadded⟩ := unpadded
  have value : Decimal.ofDigits (d :: ds) = i := by rw [← spelled, Decimal.ofDigits_digitsOf]
  rw [spelled, List.length_cons] at short
  rw [index?, ofNat_eq_digitText, read, spelled]
  simp only [if_neg unpadded, if_neg (Nat.not_lt.2 short), value, if_pos h]

end Member

namespace Value

/-! ## Nodes -/

/-- The parts of a value under the names that lead to them. -/
def entries : Value → Members
  | .array items => items.mapIdx fun i v => (Text.ofNat i, v)
  | v => v.members

mutual

/-- A value and all its parts with their paths, every part after those that it belongs to and before
    those that follow it. -/
def nodes : Value → List (List Text × Value)
  | .array items => ([], .array items) :: itemNodes 0 items
  | .object ms => ([], .object ms) :: memberNodes ms
  | .error message ms => ([], .error message ms) :: memberNodes ms
  | v => [([], v)]

/-- The same of the items of a list, counted from an index. -/
def itemNodes (index : Nat) : List Value → List (List Text × Value)
  | [] => []
  | v :: rest => v.nodes.map (fun n => (Text.ofNat index :: n.1, n.2)) ++ itemNodes (index + 1) rest

def memberNodes : List (Text × Value) → List (List Text × Value)
  | [] => []
  | (name, v) :: rest => v.nodes.map (fun n => (name :: n.1, n.2)) ++ memberNodes rest

end

/-- The nodes of a part, as nodes of the value that it is a part of. -/
def nodesUnder (m : Text × Value) : List (List Text × Value) := m.2.nodes.map fun n => (m.1 :: n.1, n.2)

/-- Whether a value is JSON data as far as its own kind goes: a text, a boolean, null, a finite number,
    an exact one, a list or an object. -/
def isPlain : Value → Bool
  | .null => true
  | .bool _ => true
  | .number x => x.isFinite
  | .exact _ => true
  | .text _ => true
  | .array _ => true
  | .object _ => true
  | .error _ _ => true
  | _ => false

/-- Whether a value has its parts as lists and objects have them: no more items than there are indices,
    and one member of a name. -/
def isFormed : Value → Bool
  | .array items => decide (items.length < Nat.pow 2 32)
  | v => decide (v.members.map Prod.fst).Nodup

variable {v w : Value} {ms : Members} {items : List Value} {path : List Text}

theorem itemNodes_eq (index : Nat) (items : List Value) : itemNodes index items =
    (items.mapIdx fun i v => (Text.ofNat (index + i), v)).flatMap nodesUnder := by
  induction items generalizing index with
  | nil => rfl
  | cons v items ih =>
    rw [itemNodes, ih, List.mapIdx_cons, List.flatMap_cons]
    simp only [Nat.add_zero, Nat.add_assoc, Nat.add_comm 1]
    rfl

theorem memberNodes_eq (ms : Members) : memberNodes ms = ms.flatMap nodesUnder := by
  induction ms with
  | nil => rfl
  | cons m ms ih =>
    rw [memberNodes, ih]
    rfl

/-- First comes the value itself, and then one part after the other with its own. -/
theorem nodes_eq (v : Value) : v.nodes = ([], v) :: v.entries.flatMap nodesUnder := by
  cases v with
  | array items =>
    rw [nodes, itemNodes_eq]
    simp only [Nat.zero_add]
    rfl
  | object ms =>
    rw [nodes, memberNodes_eq]
    rfl
  | error message ms =>
    rw [nodes, memberNodes_eq]
    rfl
  | _ => rfl

theorem entries_induction {motive : Value → Prop}
    (step : ∀ v : Value, (∀ m ∈ v.entries, motive m.2) → motive v) (v : Value) : motive v := by
  have leaf (v : Value) (h : v.entries = []) : motive v := by
    refine step v ?_
    rw [h]
    exact List.forall_mem_nil _
  refine @Value.rec motive (fun items => ∀ v ∈ items, motive v) (fun ms => ∀ m ∈ ms, motive m.2)
    (fun m => motive m.2) (leaf _ rfl) (fun _ => leaf _ rfl) (fun _ => leaf _ rfl) (fun _ => leaf _ rfl)
    (fun _ => leaf _ rfl) ?_ (fun ms => step (.object ms)) (leaf _ rfl) (leaf _ rfl) (leaf _ rfl)
    (fun _ => leaf _ rfl) (fun message ms => step (.error message ms)) (List.forall_mem_nil _) ?_
    (List.forall_mem_nil _) ?_ ?_ v
  · intro items ih
    refine step _ ?_
    intro m hm
    obtain ⟨i, hi, rfl⟩ := List.mem_mapIdx.1 hm
    exact ih _ (List.getElem_mem hi)
  · intro v items hv hitems
    exact List.forall_mem_cons.2 ⟨hv, hitems⟩
  · intro m ms hm hms
    exact List.forall_mem_cons.2 ⟨hm, hms⟩
  · intro _ _ hv
    exact hv

/-! ## The search -/

theorem nonJsonItem?_eq (index : Nat) (items : List Value) : nonJsonItem? index items =
    (items.mapIdx fun i v => (Text.ofNat (index + i), v)).findSome? fun m =>
      (nonJsonPath? m.2).map fun path => m.1 :: path := by
  induction items generalizing index with
  | nil => rfl
  | cons v items ih =>
    rw [nonJsonItem?, ih, List.mapIdx_cons, List.findSome?_cons]
    simp only [Nat.add_zero, Nat.add_assoc, Nat.add_comm 1]
    cases nonJsonPath? v <;> rfl

theorem nonJsonMember?_eq (ms : Members) : nonJsonMember? ms =
    ms.findSome? fun m => (nonJsonPath? m.2).map fun path => m.1 :: path := by
  induction ms with
  | nil => rfl
  | cons m ms ih =>
    rw [nonJsonMember?, ih, List.findSome?_cons]
    cases nonJsonPath? m.2 <;> rfl

/-- The search goes through the parts of a value in their order, unless it stops at the value. -/
theorem nonJsonPath?_eq (v : Value) : nonJsonPath? v =
    if v.isPlain then v.entries.findSome? fun m => (nonJsonPath? m.2).map fun path => m.1 :: path
    else some [] := by
  cases v with
  | array items =>
    rw [nonJsonPath?, nonJsonItem?_eq]
    simp only [Nat.zero_add]
    rfl
  | object ms => exact nonJsonMember?_eq ms
  | error message ms => exact nonJsonMember?_eq ms
  | _ => rfl

/-- That a node is the first fault of a list of nodes. It is no JSON data itself. Every node before it is
    data of its own kind, and JSON data throughout if it is not one of those that the fault is a part
    of. -/
structure FirstFault (nodes : List (List Text × Value)) (path : List Text) (fault : Value) : Prop where
  faulty : fault.isPlain = false
  split : ∃ before after, nodes = before ++ (path, fault) :: after ∧
    ∀ n ∈ before, n.2.isPlain = true ∧ (¬ n.1 <+: path → n.2.isJson = true)

namespace FirstFault

variable {ns before after : List (List Text × Value)} {fault : Value}

theorem faulty_self (h : v.isPlain = false) (ns : List (List Text × Value)) :
    FirstFault (([], v) :: ns) [] v where
  faulty := h
  split := ⟨[], ns, rfl, List.forall_mem_nil _⟩

theorem under {m : Text × Value} (h : FirstFault m.2.nodes path fault) :
    FirstFault (nodesUnder m) (m.1 :: path) fault where
  faulty := h.faulty
  split := by
    obtain ⟨before, after, listed, sound⟩ := h.split
    refine ⟨_, _, by rw [nodesUnder, listed, List.map_append, List.map_cons], ?_⟩
    rw [List.forall_mem_map]
    intro n hn
    obtain ⟨plain, data⟩ := sound n hn
    refine ⟨plain, ?_⟩
    intro beside
    refine data ?_
    intro above
    exact beside (List.cons_prefix_cons.2 ⟨rfl, above⟩)

/-- What comes before the parts with the fault is JSON data, or has the fault as its part. -/
theorem among (h : FirstFault ns path fault) (sound : ∀ n ∈ before, n.2.isPlain = true ∧ n.2.isJson = true)
    (after : List (List Text × Value)) : FirstFault (before ++ ns ++ after) path fault where
  faulty := h.faulty
  split := by
    obtain ⟨first, rest, rfl, plain⟩ := h.split
    refine ⟨before ++ first, rest ++ after, by simp, ?_⟩
    intro n hn
    obtain hn | hn := List.mem_append.1 hn
    · exact ⟨(sound n hn).1, fun _ => (sound n hn).2⟩
    · exact plain n hn

theorem below (h : FirstFault ns path fault) (plain : v.isPlain = true) :
    FirstFault (([], v) :: ns) path fault where
  faulty := h.faulty
  split := by
    obtain ⟨before, after, rfl, sound⟩ := h.split
    refine ⟨([], v) :: before, after, rfl, List.forall_mem_cons.2 ⟨⟨plain, ?_⟩, sound⟩⟩
    intro beside
    exact absurd List.nil_prefix beside

end FirstFault

theorem isJson_iff_entries (v : Value) :
    v.isJson = true ↔ v.isPlain = true ∧ ∀ m ∈ v.entries, m.2.isJson = true := by
  rw [isJson, Option.isNone_iff_eq_none, nonJsonPath?_eq]
  cases v.isPlain with
  | false => simp
  | true => simp [List.findSome?_eq_none_iff, isJson]

theorem isJson_nodes (v : Value) (h : v.isJson = true) :
    ∀ n ∈ v.nodes, n.2.isPlain = true ∧ n.2.isJson = true := by
  induction v using entries_induction with
  | step v ih =>
    obtain ⟨plain, parts⟩ := (isJson_iff_entries v).1 h
    rw [nodes_eq, List.forall_mem_cons]
    refine ⟨⟨plain, h⟩, ?_⟩
    intro n hn
    obtain ⟨m, hm, hn⟩ := List.mem_flatMap.1 hn
    obtain ⟨inner, hinner, rfl⟩ := List.mem_map.1 hn
    exact ih m hm (parts m hm) inner hinner

/-- **The path that the search returns is that of the first fault.** -/
theorem nonJsonPath?_first (v : Value) (h : nonJsonPath? v = some path) :
    ∃ fault, FirstFault v.nodes path fault := by
  induction v using entries_induction generalizing path with
  | step v ih =>
    rw [nonJsonPath?_eq] at h
    rw [nodes_eq]
    split at h
    · rename_i plain
      -- the search stopped in the part `m`, and it has found nothing in those before it
      obtain ⟨before, m, after, listed, hm, none⟩ := List.findSome?_eq_some_iff.1 h
      obtain ⟨path, found, rfl⟩ := Option.map_eq_some_iff.1 hm
      obtain ⟨fault, first⟩ := ih m (listed ▸ List.mem_append_right _ List.mem_cons_self) found
      refine ⟨fault, ?_⟩
      rw [listed, List.flatMap_append, List.flatMap_cons, ← List.append_assoc]
      refine (first.under.among ?_ _).below plain
      intro n hn
      obtain ⟨b, hb, hn⟩ := List.mem_flatMap.1 hn
      obtain ⟨inner, hinner, rfl⟩ := List.mem_map.1 hn
      have data : b.2.isJson = true := by
        rw [isJson, Option.isNone_iff_eq_none]
        exact Option.map_eq_none_iff.1 (none b hb)
      exact isJson_nodes b.2 data inner hinner
    · rename_i faulty
      cases h
      exact ⟨v, .faulty_self (Bool.not_eq_true _ ▸ faulty) _⟩

/-- **A value is JSON data if and only if each of its nodes is data of its own kind.** -/
theorem isJson_iff_nodes (v : Value) : v.isJson = true ↔ ∀ n ∈ v.nodes, n.2.isPlain = true := by
  constructor
  · intro h n hn
    exact (isJson_nodes v h n hn).1
  · intro h
    cases hp : nonJsonPath? v with
    | none => rw [isJson, hp]; rfl
    | some path =>
      obtain ⟨fault, first⟩ := nonJsonPath?_first v hp
      obtain ⟨before, after, listed, -⟩ := first.split
      have plain := h (path, fault) (listed ▸ List.mem_append_right _ List.mem_cons_self)
      rw [first.faulty] at plain
      cases plain

/-! ## Following a path -/

theorem child_of_mem (formed : v.isFormed = true) {m : Text × Value} (h : m ∈ v.entries) :
    v.child m.1 = m.2 := by
  have named {ms : Members} (formed : decide (ms.map Prod.fst).Nodup = true) (h : m ∈ ms) :
      Member.find? m.1 ms = some m.2 := Member.find?_of_mem (of_decide_eq_true formed) h
  cases v with
  | array items =>
    obtain ⟨i, hi, rfl⟩ := List.mem_mapIdx.1 h
    have bound : i < Nat.pow 2 32 - 1 :=
      Nat.lt_sub_of_add_lt (Nat.lt_of_le_of_lt hi (of_decide_eq_true formed))
    rw [child, Member.index?_ofNat bound]
    exact List.getD_eq_getElem _ _ hi
  | object ms =>
    have found : Member.find? m.1 (Value.object ms).members = some m.2 := named formed h
    show (Value.object ms).get m.1 = m.2
    unfold get find?
    rw [found]
    rfl
  | error message ms =>
    have found : Member.find? m.1 (Value.error message ms).members = some m.2 := named formed h
    show (Value.error message ms).get m.1 = m.2
    unfold get find?
    rw [found]
    rfl
  | _ => cases h

/-- **The path of a node leads to it.** -/
theorem follow_of_mem_nodes (formed : ∀ n ∈ v.nodes, n.2.isFormed = true) (h : (path, w) ∈ v.nodes) :
    v.follow path = w := by
  induction v using entries_induction generalizing path with
  | step v ih =>
    rw [nodes_eq] at formed h
    rw [List.forall_mem_cons] at formed
    obtain h | h := List.mem_cons.1 h
    · cases h
      rfl
    · -- the first step leads to the part that the node is in, the others lead on from there
      obtain ⟨m, hm, under⟩ := List.mem_flatMap.1 h
      obtain ⟨n, hn, heq⟩ := List.mem_map.1 under
      cases heq
      rw [follow, List.foldl_cons, child_of_mem formed.1 hm]
      refine ih m hm ?_ hn
      intro inner hinner
      exact formed.2 (m.1 :: inner.1, inner.2)
        (List.mem_flatMap.2 ⟨m, hm, List.mem_map_of_mem hinner⟩)

end Value

end Lifecycle
