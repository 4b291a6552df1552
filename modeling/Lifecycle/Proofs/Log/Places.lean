import Lifecycle.Proofs.Json.Nodes
import Lifecycle.Proofs.Log.Hidden

/- Hiding, place by place.

   A place is the list of names that lead to a part of an entry. Some path leads to it or none does
   (`Selected`), and hiding is decided by this alone: it replaces each part that is selected, leaves the
   names of all parts as they are, and goes on with the others (`hide_eq`). What two entries show is the
   same if they differ in selected parts alone (`Alike.mask_eq`), and what is neither selected nor part of
   what is selected is shown, as it is unless it has a selected part itself (`nodes_hide`). -/
namespace Lifecycle

namespace Value

/-! ## The parts of a value -/

/-- A value with every part replaced by what is made of its name and the part. -/
def mapEntries (f : Text → Value → Value) : Value → Value
  | .array items => .array (items.mapIdx fun i v => f (Text.ofNat i) v)
  | .object ms => .object (ms.map fun m => (m.1, f m.1 m.2))
  | .error message ms => .error message (ms.map fun m => (m.1, f m.1 m.2))
  | v => v

/-- The kind of a value with the names of its parts. -/
def frame (v : Value) : Value := v.mapEntries fun _ _ => .null

variable {f : Text → Value → Value} {v v' : Value}

theorem entries_mapEntries (f : Text → Value → Value) (v : Value) :
    (v.mapEntries f).entries = v.entries.map fun m => (m.1, f m.1 m.2) := by
  cases v with
  | array items =>
    apply List.ext_getElem
    · simp [mapEntries, entries]
    · simp [mapEntries, entries]
  | _ => rfl

theorem frame_mapEntries (f : Text → Value → Value) (v : Value) : (v.mapEntries f).frame = v.frame := by
  cases v with
  | array items =>
    apply congrArg Value.array
    apply List.ext_getElem
    · simp
    · simp
  | object ms => simp [frame, mapEntries]
  | error message ms => simp [frame, mapEntries]
  | _ => rfl

theorem items_of_entries (items : List Value) : (Value.array items).entries.map Prod.snd = items := by
  apply List.ext_getElem
  · simp [entries]
  · simp [entries]

/-- A value is determined by its frame and its parts. -/
theorem eq_of_entries (frame : v.frame = v'.frame) (parts : v.entries = v'.entries) : v = v' := by
  cases v with
  | array items =>
    cases v' with
    | array items' =>
      have same := congrArg (List.map Prod.snd) parts
      rw [items_of_entries, items_of_entries] at same
      rw [same]
    | _ => cases frame
  | _ => cases v' <;> simp_all [Value.frame, mapEntries, entries, members]

theorem names_of_frame (frame : v.frame = v'.frame) :
    v.entries.map Prod.fst = v'.entries.map Prod.fst := by
  have names := congrArg (fun v : Value => v.entries.map Prod.fst) frame
  simp only [Value.frame, entries_mapEntries, List.map_map] at names
  exact names

theorem name_of_frame (frame : v.frame = v'.frame) {i : Nat} (hi : i < v.entries.length)
    (hi' : i < v'.entries.length) : v.entries[i].1 = v'.entries[i].1 := by
  have same := List.getElem_of_eq (names_of_frame frame) (by simpa using hi)
  simpa using same

/-- Values of one frame are made the same, if what is made of each two parts is the same. -/
theorem mapEntries_congr (frame : v.frame = v'.frame)
    (h : ∀ i (hi : i < v.entries.length) (hi' : i < v'.entries.length),
      f v.entries[i].1 v.entries[i].2 = f v.entries[i].1 v'.entries[i].2) :
    v.mapEntries f = v'.mapEntries f := by
  have length : v.entries.length = v'.entries.length := by
    simpa using congrArg List.length (names_of_frame frame)
  apply eq_of_entries
  · rw [frame_mapEntries, frame_mapEntries, frame]
  · rw [entries_mapEntries, entries_mapEntries]
    apply List.ext_getElem
    · simpa using length
    · intro i hi hi'
      rw [List.length_map] at hi hi'
      rw [List.getElem_map, List.getElem_map, h i hi hi', name_of_frame frame hi hi']

theorem mapEntries_eq_self (h : ∀ m ∈ v.entries, f m.1 m.2 = m.2) : v.mapEntries f = v := by
  apply eq_of_entries
  · exact frame_mapEntries f v
  · rw [entries_mapEntries]
    conv_rhs => rw [← List.map_id v.entries]
    apply List.map_congr_left
    intro m hm
    exact Prod.ext rfl (h m hm)

/-! ## Nodes by their paths -/

theorem mem_nodes_nil {u : Value} : ([], u) ∈ v.nodes ↔ u = v := by
  rw [nodes_eq]
  simp [nodesUnder]

theorem mem_nodes_cons {u : Value} {name : Text} {place : List Text} :
    (name :: place, u) ∈ v.nodes ↔ ∃ w, (name, w) ∈ v.entries ∧ (place, u) ∈ w.nodes := by
  rw [nodes_eq]
  simp [nodesUnder]

theorem mem_nodes_concat {u : Value} {name : Text} {place : List Text} :
    (place ++ [name], u) ∈ v.nodes ↔ ∃ w, (place, w) ∈ v.nodes ∧ (name, u) ∈ w.entries := by
  induction place generalizing v with
  | nil => simp [mem_nodes_cons, mem_nodes_nil]
  | cons first place ih =>
    simp only [List.cons_append, mem_nodes_cons, ih]
    constructor
    · intro h
      obtain ⟨part, hp, w, hw, hu⟩ := h
      exact ⟨w, ⟨part, hp, hw⟩, hu⟩
    · intro h
      obtain ⟨w, ⟨part, hp, hw⟩, hu⟩ := h
      exact ⟨part, hp, w, hw, hu⟩

end Value

namespace Redaction

/-! ## Places -/

/-- Whether some path leads to a place. -/
def Selected (place : List Text) : Prop :=
  ∃ path ∈ paths, List.Forall₂ (fun step name => PathStep.leadsTo step name = true) path place

/-- What is left of the paths at a place. -/
def under (place : List Text) : List RedactionPath := place.foldl (fun ps name => below name ps) paths

variable {place : List Text} {name : Text} {path : RedactionPath} {v v' u : Value}

theorem under_concat (place : List Text) (name : Text) :
    under (place ++ [name]) = below name (under place) := by
  simp [under]

theorem mem_below_iff {ps : List RedactionPath} :
    path ∈ below name ps ↔ ∃ step, PathStep.leadsTo step name = true ∧ step :: path ∈ ps := by
  constructor
  · intro h
    obtain ⟨whole, hw, left⟩ := List.mem_filterMap.1 h
    cases whole with
    | nil => cases left
    | cons step rest =>
      by_cases leads : step.leadsTo name = true
      · simp only [leads, if_true, Option.some.injEq] at left
        subst left
        exact ⟨step, leads, hw⟩
      · simp only [leads] at left
        cases left
  · intro h
    obtain ⟨step, leads, hw⟩ := h
    exact mem_below hw leads

/-- A path is left at a place if it is the rest of one that leads there. -/
theorem mem_foldl_below {ps : List RedactionPath} {path : RedactionPath} :
    path ∈ place.foldl (fun ps name => below name ps) ps ↔ ∃ front,
      List.Forall₂ (fun step name => PathStep.leadsTo step name = true) front place ∧
        front ++ path ∈ ps := by
  induction place generalizing ps with
  | nil => simp
  | cons name place ih =>
    rw [List.foldl_cons, ih]
    constructor
    · intro h
      obtain ⟨front, along, h⟩ := h
      obtain ⟨step, leads, h⟩ := mem_below_iff.1 h
      exact ⟨step :: front, .cons leads along, h⟩
    · intro h
      obtain ⟨front, along, h⟩ := h
      cases along with
      | @cons step _ front _ leads along => exact ⟨front, along, mem_below_iff.2 ⟨step, leads, h⟩⟩

theorem isSelected_under (place : List Text) : isSelected (under place) = true ↔ Selected place := by
  rw [isSelected, List.contains_iff_mem, under, mem_foldl_below]
  constructor
  · intro h
    obtain ⟨path, along, h⟩ := h
    exact ⟨path, by simpa using h, along⟩
  · intro h
    obtain ⟨path, h, along⟩ := h
    exact ⟨path, along, by simpa using h⟩

instance (place : List Text) : Decidable (Selected place) :=
  decidable_of_iff _ (isSelected_under place)

/-- What is shown of a part: the fixed text if it is selected, and else the part with its own parts
    hidden. -/
def mask (ps : List RedactionPath) (v : Value) : Value :=
  if isSelected ps then .text censor else hide ps v

theorem hideMembers_eq (ps : List RedactionPath) (ms : Members) :
    hideMembers ps ms = ms.map fun m => (m.1, mask (below m.1 ps) m.2) := by
  induction ms with
  | nil => rfl
  | cons m ms ih =>
    rw [hideMembers, ih]
    rfl

theorem hideItems_eq (ps : List RedactionPath) (index : Nat) (items : List Value) :
    hideItems ps index items =
      items.mapIdx fun i v => mask (below (Text.ofNat (index + i)) ps) v := by
  induction items generalizing index with
  | nil => rfl
  | cons v items ih =>
    rw [hideItems, ih, List.mapIdx_cons]
    simp only [Nat.add_zero, Nat.add_assoc, Nat.add_comm 1]
    rfl

theorem hide_eq (ps : List RedactionPath) (v : Value) :
    hide ps v = v.mapEntries fun name w => mask (below name ps) w := by
  cases v with
  | array items =>
    rw [hide, hideItems_eq]
    simp only [Nat.zero_add]
    rfl
  | object ms =>
    rw [hide, hideMembers_eq]
    rfl
  | error message ms =>
    rw [hide, hideMembers_eq]
    rfl
  | _ => rfl

theorem frame_hide (ps : List RedactionPath) (v : Value) : (hide ps v).frame = v.frame := by
  rw [hide_eq, Value.frame_mapEntries]

theorem mask_of_selected (h : Selected place) (v : Value) : mask (under place) v = .text censor :=
  if_pos ((isSelected_under place).2 h)

theorem mask_of_not_selected (h : ¬Selected place) (v : Value) :
    mask (under place) v = hide (under place) v :=
  if_neg fun selected => h ((isSelected_under place).1 selected)

/-! ## Differences that are hidden -/

/-- Two values at one place that differ in selected parts alone: these are there in both. -/
inductive Alike : List Text → Value → Value → Prop where
  | same (place : List Text) (v : Value) : Alike place v v
  | selected {place : List Text} (h : Selected place) (v v' : Value) : Alike place v v'
  | parts {place : List Text} {v v' : Value} (frame : v.frame = v'.frame)
      (h : ∀ i (hi : i < v.entries.length) (hi' : i < v'.entries.length),
        Alike (place ++ [v.entries[i].1]) v.entries[i].2 v'.entries[i].2) : Alike place v v'

theorem Alike.mask_eq (h : Alike place v v') : mask (under place) v = mask (under place) v' := by
  induction h with
  | same => rfl
  | selected h v v' => rw [mask_of_selected h, mask_of_selected h]
  | @parts place v v' frame h ih =>
    have hidden : hide (under place) v = hide (under place) v' := by
      rw [hide_eq, hide_eq]
      apply Value.mapEntries_congr frame
      intro i hi hi'
      rw [← under_concat]
      exact ih i hi hi'
    rw [mask, mask, hidden]

theorem Alike.frame_eq (h : Alike place v v') (visible : ¬Selected place) : v.frame = v'.frame := by
  cases h with
  | same => rfl
  | selected h => exact absurd h visible
  | parts frame => exact frame

theorem Alike.entries (h : Alike place v v') (visible : ¬Selected place) :
    List.Forall₂ (fun m m' => m.1 = m'.1 ∧ Alike (place ++ [m.1]) m.2 m'.2) v.entries v'.entries := by
  cases h with
  | same =>
    apply List.forall₂_same.2
    intro m _
    exact ⟨rfl, .same _ _⟩
  | selected h => exact absurd h visible
  | parts frame h =>
    have length : v.entries.length = v'.entries.length := by
      simpa using congrArg List.length (Value.names_of_frame frame)
    apply List.forall₂_iff_get.2
    refine ⟨length, ?_⟩
    intro i hi hi'
    exact ⟨Value.name_of_frame frame hi hi', h i hi hi'⟩

theorem Alike.eq_of_clear (h : Alike place v v') (clear : ∀ inner, ¬Selected (place ++ inner)) :
    v = v' := by
  induction h with
  | same => rfl
  | @selected place h => exact absurd h (by simpa using clear [])
  | @parts place v v' frame h ih =>
    rw [← Value.mapEntries_eq_self (v := v) (f := fun _ w => w) fun _ _ => rfl,
      ← Value.mapEntries_eq_self (v := v') (f := fun _ w => w) fun _ _ => rfl]
    apply Value.mapEntries_congr frame
    intro i hi hi'
    apply ih i hi hi'
    intro inner
    rw [List.append_assoc]
    exact clear _

/-! ## What is shown -/

theorem hide_of_clear (place : List Text) (v : Value)
    (clear : ∀ name inner, ¬Selected (place ++ name :: inner)) : hide (under place) v = v := by
  induction v using Value.entries_induction generalizing place with
  | step v ih =>
    rw [Redaction.hide_eq]
    apply Value.mapEntries_eq_self
    intro m hm
    have visible : ¬Selected (place ++ [m.1]) := clear m.1 []
    rw [← under_concat, mask_of_not_selected visible]
    apply ih m hm
    intro name inner
    simpa using clear m.1 (name :: inner)

/-- **What is not selected and no part of what is selected is shown**, in its place and with its own
    parts hidden. -/
theorem nodes_hide (above place : List Text) (v : Value) (h : (place, u) ∈ v.nodes)
    (visible : ∀ name sooner, name :: sooner <+: place → ¬Selected (above ++ name :: sooner)) :
    (place, hide (under (above ++ place)) u) ∈ (hide (under above) v).nodes := by
  induction place generalizing above v with
  | nil =>
    rw [Value.mem_nodes_nil] at h ⊢
    rw [h, List.append_nil]
  | cons name place ih =>
    rw [Value.mem_nodes_cons] at h ⊢
    obtain ⟨w, part, inside⟩ := h
    have shown : ¬Selected (above ++ [name]) := visible name [] (by simp)
    refine ⟨hide (under (above ++ [name])) w, ?_, ?_⟩
    · rw [Redaction.hide_eq (under above), Value.entries_mapEntries]
      apply List.mem_map.2
      refine ⟨(name, w), part, ?_⟩
      rw [← under_concat, mask_of_not_selected shown]
    · have deeper := ih (above ++ [name]) w inside (by
        intro name' sooner h
        simpa using visible name (name' :: sooner) (List.cons_prefix_cons.2 ⟨rfl, h⟩))
      simpa using deeper

/-- **What is selected is replaced by the fixed text**, unless it is part of what is selected. -/
theorem nodes_hide_selected {v : Value} (h : (place ++ [name], u) ∈ v.nodes)
    (selected : Selected (place ++ [name]))
    (visible : ∀ name sooner, name :: sooner <+: place → ¬Selected (name :: sooner)) :
    (place ++ [name], .text censor) ∈ (hide paths v).nodes := by
  rw [Value.mem_nodes_concat] at h ⊢
  obtain ⟨w, above, part⟩ := h
  refine ⟨_, nodes_hide [] place v above visible, ?_⟩
  rw [Redaction.hide_eq, Value.entries_mapEntries]
  apply List.mem_map.2
  refine ⟨(name, u), part, ?_⟩
  rw [← under_concat, List.nil_append, mask_of_selected selected]

end Redaction

end Lifecycle
