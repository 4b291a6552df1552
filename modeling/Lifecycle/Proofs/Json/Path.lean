import Lifecycle.Proofs.Event.Context

/- Paths into documents and what they denote.

   A step leads into a list by an index and into an object by a name, where the last
   member of the name counts. The part of a document at a path denotes the part of its
   datum there (`datum_at?`), so two documents of one datum have equal numbers at the
   same paths. Whether the value of a document is JSON data depends on the numbers at its
   paths alone: it is unless one of them has become infinite (`value_isJson_iff`). -/
namespace Lifecycle

/-- A property of documents holds of all if lists and objects have it from their parts. -/
theorem Document.induction {motive : Document → Prop} (null : motive .null)
    (bool : ∀ b, motive (.bool b)) (number : ∀ l, motive (.number l)) (text : ∀ s, motive (.text s))
    (array : ∀ ds, (∀ d ∈ ds, motive d) → motive (.array ds))
    (object : ∀ ms, (∀ m ∈ ms, motive m.2) → motive (.object ms)) (d : Document) : motive d := by
  refine @Document.rec motive (fun ds => ∀ d ∈ ds, motive d) (fun ms => ∀ m ∈ ms, motive m.2)
    (fun m => motive m.2) null bool number text array object ?_ ?_ ?_ ?_ ?_ d
  · exact List.forall_mem_nil _
  · intro d ds hd hds
    exact List.forall_mem_cons.2 ⟨hd, hds⟩
  · exact List.forall_mem_nil _
  · intro m ms hm hms
    exact List.forall_mem_cons.2 ⟨hm, hms⟩
  · intro _ _ hd
    exact hd

inductive Step where
  | item (index : Nat)
  | member (name : Text)

namespace Datum

def child? : Datum → Step → Option Datum
  | .array items, .item index => items[index]?
  | .object member, .member name => member name
  | _, _ => none

def at? : Datum → List Step → Option Datum
  | x, [] => some x
  | x, step :: path => (x.child? step).bind fun y => y.at? path

end Datum

namespace Document

variable {amount : Literal → ℚ} {d : Document} {ds : List Document} {ms : List (Text × Document)}
  {exact : Bool}

def child? : Document → Step → Option Document
  | .array items, .item index => items[index]?
  | .object members, .member name => Member.last? name members
  | _, _ => none

def at? : Document → List Step → Option Document
  | d, [] => some d
  | d, step :: path => (d.child? step).bind fun c => c.at? path

/-! ## Parts as data -/

theorem itemData_eq (amount : Literal → ℚ) (ds : List Document) :
    itemData amount ds = ds.map (datum amount) := by
  induction ds with
  | nil => rfl
  | cons d ds ih => rw [itemData, ih]; rfl

theorem datum_child? (d : Document) (step : Step) :
    (d.datum amount).child? step = (d.child? step).map (datum amount) := by
  cases d with
  | array ds =>
    rw [datum, itemData_eq]
    cases step with
    | item index => simp [Datum.child?, child?]
    | member name => rfl
  | object ms =>
    rw [datum]
    cases step with
    | item index => rfl
    | member name => exact memberDatum_eq amount ms name
  | _ => cases step <;> rfl

theorem datum_at? (d : Document) (path : List Step) :
    (d.datum amount).at? path = (d.at? path).map (datum amount) := by
  induction path generalizing d with
  | nil => rfl
  | cons step path ih =>
    rw [Datum.at?, at?, datum_child?]
    cases d.child? step with
    | none => rfl
    | some c => exact ih c

/-- The literal that a document is, if it is a number. -/
def literal? : Document → Option Literal
  | .number l => some l
  | _ => none

theorem literal?_eq_some {l : Literal} (h : d.literal? = some l) : d = .number l := by
  cases d with
  | number l' => exact congrArg Document.number (Option.some.inj h)
  | _ => cases h

/-- The literals of an object whose members are numbers, under their names. -/
def numberMembers? : Document → Option (List (Text × Literal))
  | .object ms => ms.mapM fun m => m.2.literal?.map fun l => (m.1, l)
  | _ => none

theorem numberMembers?_eq_some {ls : List (Text × Literal)} (h : d.numberMembers? = some ls) :
    d = .object (ls.map fun m => (m.1, .number m.2)) := by
  cases d with
  | object ms =>
    rw [numberMembers?] at h
    congr 1
    induction ms generalizing ls with
    | nil =>
      cases h
      rfl
    | cons m ms ih =>
      rw [List.mapM_cons] at h
      obtain ⟨member, hmember, hrest⟩ := Option.bind_eq_some_iff.1 h
      obtain ⟨rest, hms, hls⟩ := Option.bind_eq_some_iff.1 hrest
      obtain ⟨l, hl, rfl⟩ := Option.map_eq_some_iff.1 hmember
      cases hls
      rw [List.map_cons, ← ih hms, ← literal?_eq_some hl]
  | _ => cases h

theorem number_of_datum {q : ℚ} (h : d.datum amount = .number q) : ∃ l, d = .number l ∧ amount l = q := by
  cases d with
  | number l =>
    rw [datum, Datum.number.injEq] at h
    exact ⟨l, rfl, h⟩
  | _ => simp [datum] at h

/-! ## Properties of all parts -/

/-- Whether every part of a document, at whatever path, has a property. -/
def Everywhere (Q : Document → Prop) (d : Document) : Prop := ∀ path c, d.at? path = some c → Q c

variable {Q : Document → Prop}

theorem everywhere_iff : d.Everywhere Q ↔
    Q d ∧ ∀ step c, d.child? step = some c → c.Everywhere Q := by
  constructor
  · intro h
    refine ⟨h [] d rfl, fun step c hc path c' hc' => h (step :: path) c' ?_⟩
    rw [at?, hc]
    exact hc'
  · rintro ⟨here, below⟩ path c hc
    cases path with
    | nil =>
      cases hc
      exact here
    | cons step path =>
      rw [at?] at hc
      obtain ⟨child, hchild, hrest⟩ := Option.bind_eq_some_iff.1 hc
      exact below step child hchild path c hrest

theorem everywhere_leaf (h : ∀ step, d.child? step = none) : d.Everywhere Q ↔ Q d := by
  rw [everywhere_iff]
  refine and_iff_left fun step c hc => ?_
  rw [h step] at hc
  cases hc

theorem everywhere_array : (Document.array ds).Everywhere Q ↔
    Q (.array ds) ∧ ∀ d ∈ ds, d.Everywhere Q := by
  rw [everywhere_iff]
  refine and_congr_right fun _ => ⟨fun h d hd => ?_, fun h step c hc => ?_⟩
  · obtain ⟨index, hindex⟩ := List.mem_iff_getElem?.1 hd
    exact h (.item index) d hindex
  · cases step with
    | item index => exact h c (List.mem_of_getElem? hc)
    | member name => cases hc

theorem everywhere_object : (Document.object ms).Everywhere Q ↔
    Q (.object ms) ∧ ∀ name d, Member.last? name ms = some d → d.Everywhere Q := by
  rw [everywhere_iff]
  refine and_congr_right fun _ => ⟨fun h name d hd => h (.member name) d hd, fun h step c hc => ?_⟩
  cases step with
  | item index => cases hc
  | member name => exact h name c hc

/-- Whether every number of a document, at whatever path, has a property. -/
def AllNumbers (P : Literal → Prop) (d : Document) : Prop :=
  ∀ path l, d.at? path = some (.number l) → P l

variable {P : Literal → Prop}

theorem allNumbers_iff : d.AllNumbers P ↔ d.Everywhere fun c => ∀ l, c = .number l → P l := by
  constructor
  · rintro h path _ hc l rfl
    exact h path l hc
  · intro h path l hl
    exact h path _ hl l rfl

theorem allNumbers_leaf (h : ∀ step, d.child? step = none) :
    d.AllNumbers P ↔ ∀ l, d = .number l → P l := by
  rw [allNumbers_iff, everywhere_leaf h]

theorem allNumbers_array : (Document.array ds).AllNumbers P ↔ ∀ d ∈ ds, d.AllNumbers P := by
  simp only [allNumbers_iff, everywhere_array]
  exact and_iff_right nofun

theorem allNumbers_object : (Document.object ms).AllNumbers P ↔
    ∀ name d, Member.last? name ms = some d → d.AllNumbers P := by
  simp only [allNumbers_iff, everywhere_object]
  exact and_iff_right nofun

/-! ## JSON data -/

theorem itemValues_eq (exact : Bool) (ds : List Document) :
    itemValues exact ds = ds.map (value exact) := by
  induction ds with
  | nil => rfl
  | cons d ds ih => rw [itemValues, ih]; rfl

/-- The members that an object of a document shows are the last ones of each name. -/
theorem mem_object {m : Text × Value} :
    m ∈ Member.arrange (Member.lastWins (memberValues exact ms)) ↔
      ∃ d, Member.last? m.1 ms = some d ∧ d.value exact = m.2 := by
  have hn := Member.nodup_arrange (Member.nodup_lastWins (memberValues exact ms))
  have hfind := find?_object exact ms m.1
  constructor
  · intro hm
    rw [Member.find?_of_mem hn hm] at hfind
    exact Option.map_eq_some_iff.1 hfind.symm
  · rintro ⟨d, hd, hv⟩
    rw [hd, Option.map_some, hv] at hfind
    exact Member.mem_of_find? hfind

/-- **The value of a document is JSON data exactly if all its numbers are.** -/
theorem value_isJson_iff (exact : Bool) (d : Document) : (d.value exact).isJson = true ↔
    d.AllNumbers fun l => (numberValue exact l).isJson = true := by
  induction d using Document.induction with
  | null => exact iff_of_true rfl ((allNumbers_leaf fun step => by cases step <;> rfl).2 nofun)
  | bool b => exact iff_of_true rfl ((allNumbers_leaf fun step => by cases step <;> rfl).2 nofun)
  | text s => exact iff_of_true rfl ((allNumbers_leaf fun step => by cases step <;> rfl).2 nofun)
  | number l =>
    rw [value, allNumbers_leaf fun step => by cases step <;> rfl]
    simp only [number.injEq, forall_eq']
  | array ds ih =>
    rw [value, Value.isJson_array, allNumbers_array, itemValues_eq, List.forall_mem_map]
    exact forall₂_congr ih
  | object ms ih =>
    rw [value, Value.ofMembers, Value.isJson_object, allNumbers_object]
    constructor
    · intro h name d hd
      refine (ih (name, d) (Member.mem_of_last? hd)).1 ?_
      exact h (name, d.value exact) (mem_object.2 ⟨d, hd, rfl⟩)
    · intro h m hm
      obtain ⟨d, hd, hv⟩ := mem_object.1 hm
      rw [← hv]
      exact (ih (m.1, d) (Member.mem_of_last? hd)).2 (h m.1 d hd)

theorem numberValue_exact_isJson (l : Literal) : (numberValue true l).isJson = true := by
  unfold numberValue
  cases hs : l.isSafe with
  | true => simpa [Value.isJson_number] using (Literal.written_of_safe hs).1
  | false => rfl

theorem value_exact_isJson (d : Document) : (d.value true).isJson = true := by
  rw [value_isJson_iff]
  intro path l _
  exact numberValue_exact_isJson l

/-- A document has a value that is no JSON data exactly if it is inconsistent and one of its numbers
    is too large for a double. -/
theorem toValue_isJson_iff : d.toValue.isJson = true ↔
    d.isConsistent = true ∨ d.AllNumbers fun l => l.toDouble.isFinite = true := by
  rw [toValue]
  cases d.isConsistent with
  | true => simp [value_exact_isJson]
  | false => simp [value_isJson_iff, numberValue, Value.isJson_number]

end Document

namespace Json

/-- **The codec alters no number of a consistent text.** The text that is printed for its value
    denotes the same datum, and at every path where the text has a number, of whatever length and
    magnitude, it has a literal of the same number. -/
theorem numbers_kept {t indent : Text} {d : Document} (hd : document? t = some d)
    (hc : d.isConsistent = true) (hi : Blank indent) :
    ∃ v printed, parse? t = some v ∧ document? (print indent v) = some printed ∧
      printed.datum Literal.value = d.datum Literal.value ∧
      ∀ path l, d.at? path = some (.number l) →
        ∃ l', printed.at? path = some (.number l') ∧ l'.value = l.value := by
  have hparse : parse? t = some d.toValue := by rw [parse?, hd]; rfl
  have hjson : (d.value true).isJson = true := Document.value_exact_isJson d
  have hdatum : (d.value true).written.datum Literal.value = d.datum Literal.value := by
    rw [Document.written_datum true d hjson]
    rfl
  rw [Document.toValue, hc] at hparse
  refine ⟨d.value true, (d.value true).written, hparse, document?_print hi _, hdatum, ?_⟩
  intro path l hl
  have hpart := congrArg (Datum.at? · path) hdatum
  simp only [Document.datum_at?, hl, Option.map_some] at hpart
  obtain ⟨c, hc, hnumber⟩ := Option.map_eq_some_iff.1 hpart
  obtain ⟨l', rfl, hvalue⟩ := Document.number_of_datum hnumber
  exact ⟨l', hc, hvalue⟩

/-- A number that no double is, beside one that is beyond the doubles and is repeated unchanged. -/
theorem tiny_number_kept :
    let t : Text := "\x7b\"a\":1e400,\"b\":[12345678901234567890,4.9e-324],\"a\":1e400\x7d"
    ∃ d v printed l l', document? t = some d ∧ d.isConsistent = true ∧ Blank ([] : Text) ∧
      parse? t = some v ∧ document? (print [] v) = some printed ∧
      d.at? [.member "b", .item 1] = some (.number l) ∧ l.value = 49 / 10 ^ 325 ∧
      printed.at? [.member "b", .item 1] = some (.number l') ∧ l'.value = 49 / 10 ^ 325 := by
  intro t
  have hread : (document? t).map (fun d =>
      (d.isConsistent, ((d.at? [.member "b", .item 1]).bind Document.literal?).map Literal.value)) =
        some (true, some (49 / 10 ^ 325)) := by decide +kernel
  obtain ⟨d, hd, heq⟩ := Option.map_eq_some_iff.1 hread
  obtain ⟨hconsistent, hnumber⟩ := Prod.mk.inj heq
  obtain ⟨l, hl, hvalue⟩ := Option.map_eq_some_iff.1 hnumber
  obtain ⟨c, hc, hliteral⟩ := Option.bind_eq_some_iff.1 hl
  rw [Document.literal?_eq_some hliteral] at hc
  have hblank : Blank ([] : Text) := nofun
  obtain ⟨v, printed, hparse, hprinted, -, kept⟩ := numbers_kept hd hconsistent hblank
  obtain ⟨l', hl', hsame⟩ := kept _ l hc
  exact ⟨d, v, printed, l, l', hd, hconsistent, hblank, hparse, hprinted, hc, hvalue, hl',
    hsame.trans hvalue⟩

theorem document?_of_numbers {t : Text} (ls : List (Text × Literal))
    (h : (document? t).bind Document.numberMembers? = some ls) :
    document? t = some (.object (ls.map fun m => (m.1, .number m.2))) := by
  obtain ⟨d, hd, hmembers⟩ := Option.bind_eq_some_iff.1 h
  exact hd.trans (congrArg some (Document.numberMembers?_eq_some hmembers))

/-- A number that is repeated in another spelling makes a text inconsistent, and the large one beside it
    is altered: 12345678901234567890 is printed as 12345678901234567000. -/
theorem respelled_number_rounds :
    let t : Text := "\x7b\"a\":1e400,\"a\":10e399,\"n\":12345678901234567890\x7d"
    ∃ first second large v printed l, document? t =
        some (.object [("a", .number first), ("a", .number second), ("n", .number large)]) ∧
      first.value = second.value ∧ parse? t = some v ∧ document? (print [] v) = some printed ∧
      printed.at? [.member "n"] = some (.number l) ∧ l.value ≠ large.value := by
  intro t
  let first : Literal := ⟨false, 1, [], some ⟨false, none, 4, [0, 0]⟩⟩
  let second : Literal := ⟨false, 10, [], some ⟨false, none, 3, [9, 9]⟩⟩
  let large : Literal := ⟨false, 12345678901234567890, [], none⟩
  let d : Document := .object [("a", .number first), ("a", .number second), ("n", .number large)]
  have hd : document? t = some d :=
    document?_of_numbers [("a", first), ("a", second), ("n", large)] (by decide +kernel)
  have hprinted : ((document? (print [] d.toValue)).bind fun printed =>
      (printed.at? [.member "n"]).bind Document.literal?) =
        some ⟨false, 12345678901234567000, [], none⟩ := by decide +kernel
  obtain ⟨printed, hdoc, hpart⟩ := Option.bind_eq_some_iff.1 hprinted
  obtain ⟨c, hc, hl⟩ := Option.bind_eq_some_iff.1 hpart
  rw [Document.literal?_eq_some hl] at hc
  exact ⟨first, second, large, d.toValue, printed, _, hd, by decide +kernel, by rw [parse?, hd]; rfl,
    hdoc, hc, by decide +kernel⟩

end Json
end Lifecycle
