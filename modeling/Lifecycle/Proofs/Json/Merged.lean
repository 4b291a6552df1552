import Lifecycle.Json.Merging
import Lifecycle.Proofs.Json.Order
import Lifecycle.Proofs.Json.Path

/- The merged value is the plain value, but for exact numbers.

   The merge never fails on the value of a document. `Follows d r` is what it needs of a
   tree: wherever the document has a number and the tree an exact one, they have the same
   double. Exactly then its result is the plain value once exact numbers are rounded
   (`merge?_rounded_iff`). The tree of a reader that defines all members follows its
   document. If members under the name of the archetype are assigned, a prototype can outlive
   the value that was meant to replace it, and the tree follows the document exactly if none
   does that passes for another number (`follows_exactTree_iff`). With a reader that defines
   them the merged value is the value of the document (`merge?_definedTree`). -/
namespace Lifecycle

variable {d : Document} {ds : List Document} {ms : List (Text × Document)} {r : Option ExactTree}
  {rs : List ExactTree} {vs : Members} {name : Text}

/-! ## Merging part by part -/

namespace Value

theorem roundedItems_eq (vs : List Value) : roundedItems vs = vs.map rounded := by
  induction vs with
  | nil => rfl
  | cons v vs ih => rw [roundedItems, ih]; rfl

theorem roundedMembers_eq (vs : Members) : roundedMembers vs = vs.map fun m => (m.1, m.2.rounded) := by
  induction vs with
  | nil => rfl
  | cons m vs ih => rw [roundedMembers, ih]; rfl

theorem mergeItems?_of {f : Nat → Value}
    (h : ∀ (i : Nat) d, ds[i]? = some d → d.toPlainValue.merge? rs[i]? = some (f i)) :
    mergeItems? (ds.map Document.toPlainValue) rs = some (ds.mapIdx fun i _ => f i) := by
  induction ds generalizing rs f with
  | nil => rfl
  | cons d ds ih =>
    have hfirst := h 0 d rfl
    have hrest : mergeItems? (ds.map Document.toPlainValue) rs.tail =
        some (ds.mapIdx fun i _ => f (i + 1)) := by
      refine ih fun i d hd => ?_
      rw [List.getElem?_tail]
      exact h (i + 1) d hd
    rw [← List.head?_eq_getElem?] at hfirst
    rw [List.map_cons, mergeItems?, hfirst, hrest, List.mapIdx_cons]
    rfl

theorem mergeMembers?_of {f : Text → Value}
    (h : ∀ m ∈ vs, m.2.merge? (ExactTree.member? m.1 r) = some (f m.1)) :
    mergeMembers? vs r = some ((vs.map Prod.fst).map fun name => (name, f name)) := by
  induction vs with
  | nil => rfl
  | cons m vs ih =>
    have hrest := ih fun m hm => h m (List.mem_cons_of_mem _ hm)
    rw [mergeMembers?, h m List.mem_cons_self, hrest]
    rfl

end Value

namespace Document

/-! ## The parts of a merged value -/

def shownNames (ms : List (Text × Document)) : List Text :=
  (Member.arrange (Member.lastWins ms)).map Prod.fst

def shown (exact : Bool) (ms : List (Text × Document)) : Members :=
  Member.arrange (Member.lastWins (memberValues exact ms))

theorem names_shown (exact : Bool) (ms : List (Text × Document)) :
    (shown exact ms).map Prod.fst = shownNames ms := by
  rw [shown, memberValues_eq, Member.lastWins_map, Member.arrange_map, List.map_map]
  rfl

theorem shown_eq_iff {exact : Bool} {f : Text → Value} :
    shown exact ms = (shownNames ms).map (fun name => (name, f name)) ↔
      ∀ name d, Member.last? name ms = some d → f name = d.value exact := by
  constructor
  · intro h name d hd
    have hmem : (name, d.value exact) ∈ shown exact ms := mem_object.2 ⟨d, hd, rfl⟩
    rw [h] at hmem
    obtain ⟨_, -, heq⟩ := List.mem_map.1 hmem
    obtain ⟨rfl, hv⟩ := Prod.mk.inj heq
    exact hv
  · intro h
    rw [← names_shown exact, List.map_map]
    conv_lhs => rw [← List.map_id (shown exact ms)]
    apply List.map_congr_left
    intro m hm
    obtain ⟨d, hd, hv⟩ := mem_object.1 hm
    exact Prod.ext rfl (hv.symm.trans (h m.1 d hd).symm)

/-- An object made of the names that another one shows, in their order, shows them so. -/
theorem ofMembers_shownNames (ms : List (Text × Document)) (f : Text → Value) :
    Value.ofMembers ((shownNames ms).map fun name => (name, f name)) =
      .object ((shownNames ms).map fun name => (name, f name)) := by
  have hnames : ((shownNames ms).map fun name => (name, f name)).map Prod.fst = shownNames ms := by
    rw [List.map_map]
    exact List.map_id _
  have hnodup : (((shownNames ms).map fun name => (name, f name)).map Prod.fst).Nodup := by
    rw [hnames]
    exact Member.nodup_arrange (Member.nodup_lastWins ms)
  rw [Value.ofMembers, Member.lastWins_of_nodup hnodup, Member.arrange_of_names hnodup hnames]

theorem merge?_object {f : Text → Value} (h : ∀ name d, Member.last? name ms = some d →
    d.toPlainValue.merge? (ExactTree.member? name r) = some (f name)) :
    (Document.object ms).toPlainValue.merge? r =
      some (.object ((shownNames ms).map fun name => (name, f name))) := by
  have hmembers : Value.mergeMembers? (shown false ms) r =
      some ((shownNames ms).map fun name => (name, f name)) := by
    rw [← names_shown false]
    apply Value.mergeMembers?_of
    intro m hm
    obtain ⟨d, hd, hv⟩ := mem_object.1 hm
    rw [← hv]
    exact h m.1 d hd
  rw [show (Document.object ms).toPlainValue = .object (shown false ms) from rfl, Value.merge?,
    hmembers, Option.map_some, ofMembers_shownNames]

/-- Values can be chosen for all parts of a document if there is one for each part. -/
theorem exists_parts {ι : Type} {part? : ι → Option Document} {P : ι → Document → Value → Prop}
    (h : ∀ i d, part? i = some d → ∃ v, P i d v) :
    ∃ f : ι → Value, ∀ i d, part? i = some d → P i d (f i) := by
  have choice (i : ι) : ∃ v, ∀ d, part? i = some d → P i d v := by
    cases hi : part? i with
    | none => exact ⟨.null, by rintro _ ⟨⟩⟩
    | some d =>
      obtain ⟨v, hv⟩ := h i d hi
      exact ⟨v, by rintro _ ⟨⟩; exact hv⟩
  exact Classical.skolem.1 choice

theorem toPlainValue_array (ds : List Document) :
    (Document.array ds).toPlainValue = .array (ds.map toPlainValue) := by
  rw [toPlainValue, value, itemValues_eq]
  rfl

theorem merge?_array {f : Nat → Value} (h : ∀ (i : Nat) d, ds[i]? = some d →
    d.toPlainValue.merge? (ExactTree.items r)[i]? = some (f i)) :
    (Document.array ds).toPlainValue.merge? r = some (.array (ds.mapIdx fun i _ => f i)) := by
  rw [toPlainValue_array, Value.merge?, Value.mergeItems?_of h, Option.map_some]

theorem rounded_array_iff {f : Nat → Value} :
    (Value.array (ds.mapIdx fun i _ => f i)).rounded = (Document.array ds).toPlainValue ↔
      ∀ (i : Nat) d, ds[i]? = some d → (f i).rounded = d.toPlainValue := by
  rw [toPlainValue_array, Value.rounded, Value.roundedItems_eq, Value.array.injEq]
  constructor
  · intro h i d hd
    have hi := congrArg (·[i]?) h
    simpa only [List.getElem?_map, List.getElem?_mapIdx, hd, Option.map_some, Option.some.injEq] using hi
  · intro h
    refine List.ext_getElem? fun i => ?_
    simp only [List.getElem?_map, List.getElem?_mapIdx]
    cases hd : ds[i]? with
    | none => rfl
    | some d => exact congrArg some (h i d hd)

theorem rounded_object_iff {f : Text → Value} :
    (Value.object ((shownNames ms).map fun name => (name, f name))).rounded =
        (Document.object ms).toPlainValue ↔
      ∀ name d, Member.last? name ms = some d → (f name).rounded = d.toPlainValue := by
  rw [show (Document.object ms).toPlainValue = .object (shown false ms) from rfl, Value.rounded,
    Value.roundedMembers_eq, List.map_map, Value.object.injEq, eq_comm]
  exact shown_eq_iff

/-! ## Trees that follow a document -/

/-- In the place of a number of the document a tree has no exact number of another double. -/
inductive Follows : Document → Option ExactTree → Prop where
  | null {r : Option ExactTree} : Follows .null r
  | bool {b : Bool} {r : Option ExactTree} : Follows (.bool b) r
  | text {s : Text} {r : Option ExactTree} : Follows (.text s) r
  | number {l : Literal} {r : Option ExactTree}
      (h : ∀ l', r.bind ExactTree.literal? = some l' → l'.toDouble = l.toDouble) : Follows (.number l) r
  | array {ds : List Document} {r : Option ExactTree}
      (h : ∀ (i : Nat) d, ds[i]? = some d → Follows d (ExactTree.items r)[i]?) : Follows (.array ds) r
  | object {ms : List (Text × Document)} {r : Option ExactTree}
      (h : ∀ name d, Member.last? name ms = some d → Follows d (ExactTree.member? name r)) :
      Follows (.object ms) r

theorem follows_number_iff {l : Literal} : Follows (.number l) r ↔
    ∀ l', r.bind ExactTree.literal? = some l' → l'.toDouble = l.toDouble :=
  ⟨fun | .number h => h, .number⟩

theorem follows_array_iff : Follows (.array ds) r ↔
    ∀ (i : Nat) d, ds[i]? = some d → Follows d (ExactTree.items r)[i]? :=
  ⟨fun | .array h => h, .array⟩

theorem follows_object_iff : Follows (.object ms) r ↔
    ∀ name d, Member.last? name ms = some d → Follows d (ExactTree.member? name r) :=
  ⟨fun | .object h => h, .object⟩

/-- **The merge never fails**, and it alters no double exactly if the tree follows the document. -/
theorem merge?_rounded_iff (d : Document) (r : Option ExactTree) :
    ∃ v, d.toPlainValue.merge? r = some v ∧ (v.rounded = d.toPlainValue ↔ Follows d r) := by
  induction d using Document.induction generalizing r with
  | null => exact ⟨.null, by simp [toPlainValue, value, Value.merge?], iff_of_true rfl .null⟩
  | bool b => exact ⟨.bool b, by simp [toPlainValue, value, Value.merge?], iff_of_true rfl .bool⟩
  | text s => exact ⟨.text s, by simp [toPlainValue, value, Value.merge?], iff_of_true rfl .text⟩
  | number l =>
    refine ⟨_, rfl, ?_⟩
    rw [follows_number_iff]
    cases r.bind ExactTree.literal? with
    | none => exact iff_of_true rfl (by rintro _ ⟨⟩)
    | some l' => simp [toPlainValue, value, numberValue, Value.rounded]
  | array ds ih =>
    obtain ⟨f, hf⟩ := exists_parts fun (i : Nat) d (hd : ds[i]? = some d) =>
      ih d (List.mem_of_getElem? hd) (ExactTree.items r)[i]?
    refine ⟨_, merge?_array fun i d hd => (hf i d hd).1, ?_⟩
    rw [rounded_array_iff, follows_array_iff]
    exact forall₃_congr fun i d hd => (hf i d hd).2
  | object ms ih =>
    obtain ⟨f, hf⟩ := exists_parts fun name d (hd : Member.last? name ms = some d) =>
      ih (name, d) (Member.mem_of_last? hd) (ExactTree.member? name r)
    refine ⟨_, merge?_object fun name d hd => (hf name d hd).1, ?_⟩
    rw [rounded_object_iff, follows_object_iff]
    exact forall₃_congr fun name d hd => (hf name d hd).2

/-! ## The trees of a document -/

variable {placement : Placement}

theorem exactItems_eq (placement : Placement) (ds : List Document) :
    exactItems placement ds = ds.map (exactTree placement) := by
  induction ds with
  | nil => rfl
  | cons d ds ih => rw [exactItems, ih]; rfl

theorem exactMembers_eq (placement : Placement) (ms : List (Text × Document)) :
    exactMembers placement ms = ms.map fun m => (m.1, m.2.exactTree placement) := by
  induction ms with
  | nil => rfl
  | cons m ms ih => rw [exactMembers, ih]; rfl

theorem follows_none (d : Document) : Follows d none := by
  induction d using Document.induction with
  | null => exact .null
  | bool b => exact .bool
  | number l => exact .number nofun
  | text s => exact .text
  | array ds ih => exact .array fun i d hd => ih d (List.mem_of_getElem? hd)
  | object ms ih => exact .object fun name d hd => ih (name, d) (Member.mem_of_last? hd)

theorem member?_object {own : List (Text × ExactTree)} {prototype : Option ExactTree} :
    ExactTree.member? name (some (.object own prototype)) =
      (Member.find? name own).or (if name = archetypeName then prototype else none) := by
  rw [ExactTree.member?]
  cases Member.find? name own <;> rfl

theorem find?_ownMembers (h : placement = .defines ∨ name ≠ archetypeName) :
    Member.find? name (ownMembers placement (exactMembers placement ms)) =
      (Member.last? name ms).map (exactTree placement) := by
  cases placement with
  | defines => rw [ownMembers, Member.find?_lastWins, exactMembers_eq, Member.last?_map]
  | assigns numberIsObject =>
    have hname : name ≠ archetypeName := h.resolve_left nofun
    rw [ownMembers, Member.find?_lastWins, Member.last?_filter (· ≠ archetypeName) _ (by simpa using hname),
      exactMembers_eq, Member.last?_map]

theorem member?_own (hd : Member.last? name ms = some d)
    (h : placement = .defines ∨ name ≠ archetypeName) :
    ExactTree.member? name (some ((Document.object ms).exactTree placement)) =
      some (d.exactTree placement) := by
  rw [exactTree, member?_object, find?_ownMembers h, hd]
  rfl

theorem member?_prototype (numberIsObject : Bool) (ms : List (Text × Document)) :
    ExactTree.member? archetypeName
        (some ((Document.object ms).exactTree (.assigns numberIsObject))) =
      prototype? (.assigns numberIsObject) (exactMembers (.assigns numberIsObject) ms) := by
  have hown (rs : List (Text × ExactTree)) :
      Member.find? archetypeName (ownMembers (.assigns numberIsObject) rs) = none := by
    rw [ownMembers, Member.find?_lastWins, Member.last?_eq_getLast?, List.filter_filter]
    simp
  rw [exactTree, member?_object, hown, if_pos rfl]
  rfl

theorem prototype?_last {numberIsObject : Bool} (hd : Member.last? archetypeName ms = some d)
    (hr : (d.exactTree (.assigns numberIsObject)).replaces numberIsObject = true) :
    prototype? (.assigns numberIsObject) (exactMembers (.assigns numberIsObject) ms) =
      some (d.exactTree (.assigns numberIsObject)) := by
  rw [prototype?]
  generalize hassigned : ((exactMembers (.assigns numberIsObject) ms).filter
    fun r => r.1 = archetypeName).map (·.2) = rs
  have hlast : rs.getLast? = some (d.exactTree (.assigns numberIsObject)) := by
    rw [← hassigned, ← Member.last?_eq_getLast?, exactMembers_eq, Member.last?_map, hd]
    rfl
  obtain ⟨others, rfl⟩ := List.getLast?_eq_some_iff.1 hlast
  rw [List.filter_append, List.filter_cons_of_pos hr, List.filter_nil, List.getLast?_concat]

/-- Whether no number that is the last to be assigned in an object is outlived by a prototype that
    passes for an exact number of another double. -/
def SettledAt (placement : Placement) : Document → Prop
  | .object ms => ∀ l l', Member.last? archetypeName ms = some (.number l) →
      (prototype? placement (exactMembers placement ms)).bind ExactTree.literal? = some l' →
      l'.toDouble = l.toDouble
  | _ => True

/-- Whether this is so in every object of a document. -/
def Settled (placement : Placement) (d : Document) : Prop := d.Everywhere (SettledAt placement)

theorem follows_number (placement : Placement) (l : Literal) :
    Follows (.number l) (some ((Document.number l).exactTree placement)) := by
  refine .number fun l' hl' => ?_
  rw [exactTree] at hl'
  split at hl'
  · cases hl'
  · cases hl'
    rfl

/-- What an object has under a name follows the last member as far as its own tree does, unless a
    prototype outlives it. -/
theorem follows_member?_iff (hd : Member.last? name ms = some d) :
    Follows d (ExactTree.member? name (some ((Document.object ms).exactTree placement))) ↔
      Follows d (some (d.exactTree placement)) ∧
        (name = archetypeName → ∀ l l', d = .number l →
          (prototype? placement (exactMembers placement ms)).bind ExactTree.literal? = some l' →
          l'.toDouble = l.toDouble) := by
  by_cases h : placement = .defines ∨ name ≠ archetypeName
  · rw [member?_own hd h]
    refine (and_iff_left fun hname => ?_).symm
    obtain rfl := h.resolve_right (not_not_intro hname)
    nofun
  · obtain ⟨hplacement, hname⟩ := not_or.1 h
    obtain rfl := not_not.1 hname
    cases placement with
    | defines => exact absurd rfl hplacement
    | assigns numberIsObject =>
      rw [member?_prototype]
      cases d with
      | null => exact iff_of_true .null ⟨.null, fun _ => nofun⟩
      | bool b => exact iff_of_true .bool ⟨.bool, fun _ => nofun⟩
      | text s => exact iff_of_true .text ⟨.text, fun _ => nofun⟩
      | number l =>
        rw [follows_number_iff, and_iff_right (follows_number _ l)]
        constructor
        · rintro h - _ l' ⟨⟩ hl'
          exact h l' hl'
        · intro h l' hl'
          exact h rfl l l' rfl hl'
      | array ds =>
        rw [prototype?_last hd rfl]
        exact (and_iff_left fun _ => nofun).symm
      | object ms' =>
        rw [prototype?_last hd rfl]
        exact (and_iff_left fun _ => nofun).symm

/-- **The tree of a document follows it** exactly if no prototype outlives a number. -/
theorem follows_exactTree_iff (placement : Placement) (d : Document) :
    Follows d (some (d.exactTree placement)) ↔ d.Settled placement := by
  induction d using Document.induction with
  | null => exact iff_of_true .null ((everywhere_leaf fun step => by cases step <;> rfl).2 trivial)
  | bool b => exact iff_of_true .bool ((everywhere_leaf fun step => by cases step <;> rfl).2 trivial)
  | text s => exact iff_of_true .text ((everywhere_leaf fun step => by cases step <;> rfl).2 trivial)
  | number l =>
    exact iff_of_true (follows_number placement l)
      ((everywhere_leaf fun step => by cases step <;> rfl).2 trivial)
  | array ds ih =>
    have hitem (i : Nat) : (ExactTree.items (some ((Document.array ds).exactTree placement)))[i]? =
        ds[i]?.map (exactTree placement) := by
      rw [exactTree, exactItems_eq, ExactTree.items, List.getElem?_map]
    rw [follows_array_iff, Settled, everywhere_array]
    refine Iff.trans ?_ (and_iff_right trivial).symm
    constructor
    · intro h d hd
      obtain ⟨i, hi⟩ := List.mem_iff_getElem?.1 hd
      have hfollows := h i d hi
      rw [hitem, hi] at hfollows
      exact (ih d hd).1 hfollows
    · intro h i d hi
      have hd := List.mem_of_getElem? hi
      rw [hitem, hi]
      exact (ih d hd).2 (h d hd)
  | object ms ih =>
    rw [follows_object_iff, Settled, everywhere_object]
    constructor
    · intro h
      refine ⟨fun l l' hl => ?_, fun name d hd => ?_⟩
      · exact ((follows_member?_iff hl).1 (h _ _ hl)).2 rfl l l' rfl
      · exact (ih (name, d) (Member.mem_of_last? hd)).1 ((follows_member?_iff hd).1 (h name d hd)).1
    · rintro ⟨here, below⟩ name d hd
      refine (follows_member?_iff hd).2 ⟨(ih (name, d) (Member.mem_of_last? hd)).2 (below name d hd), ?_⟩
      rintro rfl l l' rfl hl'
      exact here l l' hd hl'

theorem prototype?_mem {numberIsObject : Bool} {prototype : ExactTree}
    (h : prototype? (.assigns numberIsObject) (exactMembers (.assigns numberIsObject) ms) =
      some prototype) :
    prototype.replaces numberIsObject = true ∧
      ∃ m ∈ ms, m.2.exactTree (.assigns numberIsObject) = prototype := by
  rw [prototype?, exactMembers_eq] at h
  obtain ⟨hassigned, hreplaces⟩ := List.mem_filter.1 (List.mem_of_getLast? h)
  obtain ⟨_, hmem, rfl⟩ := List.mem_map.1 hassigned
  obtain ⟨m, hm, rfl⟩ := List.mem_map.1 (List.mem_of_mem_filter hmem)
  exact ⟨hreplaces, m, hm, rfl⟩

theorem literal?_of_replaces (d : Document)
    (h : (d.exactTree (.assigns false)).replaces false = true) :
    (d.exactTree (.assigns false)).literal? = none := by
  induction d using Document.induction with
  | object ms ih =>
    rw [exactTree]
    cases hp : prototype? (.assigns false) (exactMembers (.assigns false) ms) with
    | none => rfl
    | some r =>
      obtain ⟨hreplaces, m, hm, rfl⟩ := prototype?_mem hp
      exact ih m hm hreplaces
  | number l =>
    rw [exactTree] at h
    split at h <;> cases h
  | array ds => rfl
  | _ => cases h

/-- Nothing is outlived where members are defined, or where numbers are assigned as primitives. -/
theorem settled_of_ne (h : placement ≠ .assigns true) (d : Document) : d.Settled placement := by
  intro path c _
  cases c with
  | object ms =>
    intro l l' _ hl'
    cases placement with
    | defines => cases hl'
    | assigns numberIsObject =>
      obtain rfl : numberIsObject = false := by
        rw [← Bool.not_eq_true]
        rintro rfl
        exact h rfl
      obtain ⟨r, hr, hexact⟩ := Option.bind_eq_some_iff.1 hl'
      obtain ⟨hreplaces, m, -, rfl⟩ := prototype?_mem hr
      rw [literal?_of_replaces m.2 hreplaces] at hexact
      cases hexact
  | _ => trivial

/-! ## The exact value -/

/-- The tree of a reader that defines every member, if it does not refuse the document. -/
def definedTree (exact : Bool) (d : Document) : Option ExactTree :=
  if exact then some (d.exactTree .defines) else none

theorem items_definedTree (exact : Bool) (ds : List Document) (i : Nat) :
    (ExactTree.items (definedTree exact (.array ds)))[i]? = ds[i]?.bind (definedTree exact) := by
  cases exact with
  | false =>
    cases ds[i]? <;> rfl
  | true =>
    rw [definedTree, if_pos rfl, exactTree, exactItems_eq, ExactTree.items, List.getElem?_map]
    cases ds[i]? <;> rfl

theorem member?_definedTree (exact : Bool) (hd : Member.last? name ms = some d) :
    ExactTree.member? name (definedTree exact (.object ms)) = definedTree exact d := by
  cases exact with
  | false => rfl
  | true => exact member?_own hd (.inl rfl)

/-- **A reader that defines every member gives back the value of the document.** -/
theorem merge?_definedTree (exact : Bool) (d : Document) :
    d.toPlainValue.merge? (definedTree exact d) = some (d.value exact) := by
  induction d using Document.induction with
  | null => cases exact <;> rfl
  | bool b => cases exact <;> rfl
  | text s => cases exact <;> rfl
  | number l =>
    rw [toPlainValue, value, value, numberValue, numberValue, definedTree, exactTree]
    cases exact <;> cases l.isSafe <;> rfl
  | array ds ih =>
    have hitems : ∀ (i : Nat) d, ds[i]? = some d → d.toPlainValue.merge?
        (ExactTree.items (definedTree exact (.array ds)))[i]? =
          some ((ds[i]?.map (value exact)).getD .null) := by
      intro i d hd
      rw [items_definedTree, hd]
      exact ih d (List.mem_of_getElem? hd)
    have hvalues : ds.mapIdx (fun i _ => (ds[i]?.map (value exact)).getD .null) = ds.map (value exact) := by
      refine List.ext_getElem? fun i => ?_
      rw [List.getElem?_mapIdx, List.getElem?_map]
      cases ds[i]? <;> rfl
    rw [merge?_array hitems, hvalues, value, itemValues_eq]
  | object ms ih =>
    have hmembers : ∀ name d, Member.last? name ms = some d → d.toPlainValue.merge?
        (ExactTree.member? name (definedTree exact (.object ms))) =
          some (((Member.last? name ms).map (value exact)).getD .null) := by
      intro name d hd
      rw [member?_definedTree exact hd, hd]
      exact ih (name, d) (Member.mem_of_last? hd)
    rw [merge?_object hmembers]
    refine congrArg (fun ms => some (Value.object ms)) (shown_eq_iff.2 fun name d hd => ?_).symm
    rw [hd]
    rfl

/-! ## The plain reading -/

/-- What a document denotes when its numbers are doubles: of members of one name the last one, in
    the place that the order of the names gives it. -/
inductive Denotes : Document → Value → Prop where
  | null : Denotes .null .null
  | bool (b : Bool) : Denotes (.bool b) (.bool b)
  | number (l : Literal) : Denotes (.number l) (.number l.toDouble)
  | text (s : Text) : Denotes (.text s) (.text s)
  | array {ds : List Document} {vs : List Value} (size : ds.length = vs.length)
      (items : ∀ (i : Nat) d v, ds[i]? = some d → vs[i]? = some v → Denotes d v) :
      Denotes (.array ds) (.array vs)
  | object {ms : List (Text × Document)} {vs : Members}
      (names : Member.Shows (ms.map Prod.fst) (vs.map Prod.fst))
      (members : ∀ name d v, Member.last? name ms = some d → Member.find? name vs = some v →
        Denotes d v) : Denotes (.object ms) (.object vs)

theorem denotes_toPlainValue (d : Document) : d.Denotes d.toPlainValue := by
  induction d using Document.induction with
  | null => exact .null
  | bool b => exact .bool b
  | number l => exact .number l
  | text s => exact .text s
  | array ds ih =>
    rw [toPlainValue_array]
    refine .array (List.length_map _).symm ?_
    intro i d v hd hv
    rw [List.getElem?_map, hd] at hv
    rw [← Option.some.inj hv]
    exact ih d (List.mem_of_getElem? hd)
  | object ms ih =>
    refine .object ?_ ?_
    · have hnames : (memberValues false ms).map Prod.fst = ms.map Prod.fst := by
        rw [memberValues_eq, List.map_map]
        rfl
      rw [← hnames]
      exact Member.shows_arrange _
    · intro name d v hd hv
      rw [find?_object, hd] at hv
      rw [← Option.some.inj hv]
      exact ih (name, d) (Member.mem_of_last? hd)

end Document

namespace Json

theorem parseWith_eq (reader : ExactReader) {t : Text} (hd : document? t = some d) :
    parseWith reader t = d.toPlainValue.merge?
      (if reader.accepts d then some (d.exactTree reader.placement) else none) := by
  rw [parseWith, plain?, ExactReader.read?, hd]
  rfl

theorem parse?_eq_parseWith (t : Text) : parse? t = parseWith .defining t := by
  cases hd : document? t with
  | none => rw [parse?, parseWith, plain?, hd]; rfl
  | some d =>
    rw [parse?, hd, parseWith_eq .defining hd]
    exact (Document.merge?_definedTree d.isConsistent d).symm

theorem parseWith_rounded_iff (reader : ExactReader) {t : Text} (hd : document? t = some d) :
    ∃ v, parseWith reader t = some v ∧
      (v.rounded = d.toPlainValue ↔ (reader.accepts d = true → d.Settled reader.placement)) := by
  obtain ⟨v, hv, hrounded⟩ := Document.merge?_rounded_iff d
    (if reader.accepts d then some (d.exactTree reader.placement) else none)
  refine ⟨v, (parseWith_eq reader hd).trans hv, hrounded.trans ?_⟩
  cases ha : reader.accepts d with
  | false => exact iff_of_true (Document.follows_none d) nofun
  | true =>
    rw [if_pos rfl, Document.follows_exactTree_iff]
    exact ⟨fun h _ => h, fun h => h rfl⟩

/-- A large number that a reader assigns as an object outlives a later one; the reader at work is not
    deceived. -/
example :
    let t : Text := "\x7b\"__proto__\":12345678901234567890,\"__proto__\":5\x7d"
    (parseWith ⟨.assigns true, fun _ => true⟩ t).map compact =
        some "\x7b\"__proto__\":12345678901234567890\x7d" ∧
      (parse? t).map compact = some "\x7b\"__proto__\":5\x7d" := by
  decide +kernel

end Json
end Lifecycle
