import Lifecycle.Log.Rendering
import Lifecycle.Proofs.Json.Nodes
import Lifecycle.Proofs.Log.Hidden

/- What is logged in place of a record that looks like an error.

   It is JSON data if the record is (`isJson_asError`), and it is found out from the record by looking for
   members under a few names. So records that differ only under other names are rearranged alike
   (`asError_agree`). -/
namespace Lifecycle.Log

/-! ## One member at a time -/

theorem causeMessage_eq (ms : Members) : causeMessage ms =
    ((Member.find? "cause" ms).map fun v => if isErrorLike v then ": " ++ fullMessage v else []).getD [] := by
  induction ms with
  | nil => rfl
  | cons m ms ih =>
    rw [causeMessage, Member.find?, ih]
    split
    · rfl
    · rfl

theorem causeStack_eq (ms : Members) : causeStack ms =
    (Member.find? "cause" ms).bind fun v => if isErrorLike v then some (fullStack v) else none := by
  induction ms with
  | nil => rfl
  | cons m ms ih =>
    rw [causeStack, Member.find?, ih]
    split
    · rfl
    · rfl

theorem asErrorItems_eq (items : List Value) : asErrorItems items = items.map asError := by
  induction items with
  | nil => rfl
  | cons v items ih => rw [asErrorItems, ih, List.map_cons]

/-- The errors that a list stands for, if it is one. -/
def listed? : Value → Option (List Value)
  | .array items => some (items.map asError)
  | _ => none

theorem errorsOf?_eq (ms : Members) : errorsOf? ms = (Member.find? "errors" ms).bind listed? := by
  induction ms with
  | nil => rfl
  | cons m ms ih =>
    obtain ⟨name, v⟩ := m
    rw [Member.find?]
    cases v with
    | array items =>
      rw [errorsOf?, ih, asErrorItems_eq]
      split
      · rfl
      · rfl
    | _ =>
      simp only [errorsOf?, ih]
      split
      · rfl
      · rfl

/-- Whether a member is a cause whose message is told already. -/
def isToldCause (m : Text × Value) : Bool := m.1 = ("cause" : Text) && isErrorLike m.2

theorem asErrorMembers_eq (ms : Members) : asErrorMembers ms =
    (ms.filter fun m => !isToldCause m).map fun m => (m.1, asError m.2) := by
  induction ms with
  | nil => rfl
  | cons m ms ih =>
    obtain ⟨name, v⟩ := m
    have step : asErrorMembers ((name, v) :: ms) = if isToldCause (name, v) then asErrorMembers ms
        else (name, asError v) :: asErrorMembers ms := by
      rw [asErrorMembers]
      rfl
    rw [step, ih, List.filter_cons]
    cases isToldCause (name, v) <;> rfl

theorem asError_of_not_object {v : Value} (h : ∀ ms, v ≠ .object ms) : asError v = v := by
  cases v with
  | object ms => exact absurd rfl (h ms)
  | _ => rfl

/-! ## JSON data -/

variable {ms ms' shown : Members} {v : Value} {name : Text}

theorem isJson_find? (h : ∀ m ∈ ms, m.2.isJson = true) (hv : Member.find? name ms = some v) :
    v.isJson = true := h _ (Member.mem_of_find? hv)

theorem isJson_ownStack (h : ∀ m ∈ ms, m.2.isJson = true) : (ownStack ms).isJson = true := by
  unfold ownStack
  split
  · rfl
  · next v hv =>
    split
    · rfl
    · exact isJson_find? h hv

theorem isJson_fullStack (h : ∀ m ∈ ms, m.2.isJson = true) :
    (fullStack (.object ms)).isJson = true := by
  rw [fullStack]
  cases causeStack ms with
  | none => exact isJson_ownStack h
  | some below => rfl

theorem isJson_sortOf? (h : ∀ m ∈ ms, m.2.isJson = true) (hv : sortOf? ms = some v) :
    v.isJson = true := by
  unfold sortOf? at hv
  split at hv
  · cases hv
    rfl
  · cases hv
    rfl
  · exact isJson_find? h (Option.filter_eq_some_iff.1 hv).1

theorem isJson_arranged {errors : Option (List Value)} (h : ∀ m ∈ ms, m.2.isJson = true)
    (hshown : ∀ m ∈ shown, m.2.isJson = true)
    (herrors : ∀ items, errors = some items → ∀ v ∈ items, v.isJson = true) :
    ∀ m ∈ arranged ms shown errors, m.2.isJson = true := by
  intro m hm
  simp only [arranged, List.mem_append, List.mem_cons, List.mem_filter, Option.mem_toList,
    Option.map_eq_some_iff, List.not_mem_nil, or_false] at hm
  obtain ((⟨v, hv, rfl⟩ | rfl | rfl) | ⟨items, he, rfl⟩) | ⟨hm, -⟩ := hm
  · obtain sort | ⟨-, own⟩ := Option.or_eq_some_iff.1 hv
    · exact isJson_sortOf? h sort
    · exact isJson_find? hshown own
  · rfl
  · exact isJson_fullStack h
  · exact Value.isJson_array.2 (herrors items he)
  · exact hshown m hm

theorem isJson_asError (v : Value) (h : v.isJson = true) : (asError v).isJson = true := by
  -- the errors that an error stands for are parts of one of its parts
  suffices both : (asError v).isJson = true ∧ ∀ m ∈ v.entries, (asError m.2).isJson = true from both.1
  induction v using Value.entries_induction with
  | step v ih =>
    have parts := ((Value.isJson_iff_entries v).1 h).2
    have below (m : Text × Value) (hm : m ∈ v.entries) := ih m hm (parts m hm)
    refine ⟨?_, fun m hm => (below m hm).1⟩
    cases v with
    | object ms =>
      rw [asError]
      split
      · rw [Value.isJson_object]
        apply isJson_arranged parts
        · rw [asErrorMembers_eq]
          intro m hm
          obtain ⟨m', hm', rfl⟩ := List.mem_map.1 hm
          exact (below m' (List.mem_of_mem_filter hm')).1
        · intro items he w hw
          rw [errorsOf?_eq] at he
          obtain ⟨u, hu, listed⟩ := Option.bind_eq_some_iff.1 he
          cases u with
          | array given =>
            cases listed
            obtain ⟨item, hitem, rfl⟩ := List.mem_map.1 hw
            obtain ⟨i, hi, rfl⟩ := List.getElem_of_mem hitem
            have part : (Text.ofNat i, given[i]) ∈ (Value.array given).entries :=
              List.mem_mapIdx.2 ⟨i, hi, rfl⟩
            exact (below _ (Member.mem_of_find? hu)).2 _ part
          | _ => cases listed
      · exact h
    | _ => exact h

/-! ## Records that differ under other names -/

/-- Members of the same names in the same order, with the same values except under free names. -/
def Agree (free : Text → Prop) (ms ms' : Members) : Prop :=
  List.Forall₂ (fun m m' => m.1 = m'.1 ∧ (m.2 = m'.2 ∨ free m.1)) ms ms'

/-- The names under which a record is looked at to log it as an error. -/
def looked : List Text := ["message", "cause", "stack", "errors", "constructor", "name", "type"]

variable {free : Text → Prop}

theorem Agree.find? (h : Agree free ms ms') (fixed : ¬free name) :
    Member.find? name ms = Member.find? name ms' := by
  induction h with
  | nil => rfl
  | @cons m m' ms ms' hm _ ih =>
    obtain ⟨same, hm⟩ := hm
    rw [Member.find?, Member.find?, ih, same]
    split
    · next named =>
      obtain equal | loose := hm
      · rw [equal]
      · rw [same, named] at loose
        exact absurd loose fixed
    · rfl

theorem Agree.refl (ms : Members) : Agree free ms ms :=
  List.forall₂_same.2 fun _ _ => ⟨rfl, .inl rfl⟩

theorem Agree.filter (h : Agree free ms ms') (p : Text × Value → Bool)
    (hp : ∀ m m' : Text × Value, m.1 = m'.1 → m.2 = m'.2 ∨ free m.1 → p m = p m') :
    Agree free (ms.filter p) (ms'.filter p) := by
  refine List.rel_filter ?_ h
  intro m m' related
  exact Bool.eq_iff_iff.1 (hp m m' related.1 related.2)

theorem Agree.told (h : Agree free ms ms') (fixed : ¬free "cause") :
    Agree free (asErrorMembers ms) (asErrorMembers ms') := by
  rw [asErrorMembers_eq, asErrorMembers_eq]
  have kept : Agree free (ms.filter fun m => !isToldCause m) (ms'.filter fun m => !isToldCause m) := by
    apply h.filter
    intro m m' same equal
    rw [isToldCause, isToldCause, same]
    obtain equal | loose := equal
    · rw [equal]
    · have other : m'.1 ≠ "cause" := by
        intro named
        rw [same, named] at loose
        exact fixed loose
      simp [other]
  refine List.rel_map ?_ kept
  intro m m' related
  refine ⟨related.1, ?_⟩
  obtain equal | loose := related.2
  · exact .inl (congrArg asError equal)
  · exact .inr loose

theorem Agree.errorLike (h : Agree free ms ms') (fixed : ¬free "message") :
    isErrorLike (.object ms) = isErrorLike (.object ms') := by
  rw [isErrorLike, isErrorLike, Value.get_object, Value.get_object, h.find? fixed]

theorem Agree.rearranged (h : Agree free ms ms') (fixed : ∀ name ∈ looked, ¬free name) :
    Agree free (arranged ms (asErrorMembers ms) (errorsOf? ms))
      (arranged ms' (asErrorMembers ms') (errorsOf? ms')) := by
  have same (name : Text) (hn : name ∈ looked) : Member.find? name ms = Member.find? name ms' :=
    h.find? (fixed name hn)
  have shown := h.told (fixed "cause" (by decide))
  have sort : sortOf? ms = sortOf? ms' := by
    rw [sortOf?, sortOf?, same "constructor" (by decide), same "name" (by decide)]
  have ownSort := shown.find? (fixed "type" (by decide))
  have message : fullMessage (.object ms) = fullMessage (.object ms') := by
    rw [fullMessage, fullMessage, causeMessage_eq, causeMessage_eq, same "message" (by decide),
      same "cause" (by decide)]
  have stack : fullStack (.object ms) = fullStack (.object ms') := by
    rw [fullStack, fullStack, causeStack_eq, causeStack_eq, ownStack, ownStack, same "stack" (by decide),
      same "cause" (by decide)]
  have errors : errorsOf? ms = errorsOf? ms' := by
    rw [errorsOf?_eq, errorsOf?_eq, same "errors" (by decide)]
  unfold arranged
  rw [sort, ownSort, message, stack, errors]
  refine List.rel_append (Agree.refl _) (shown.filter _ ?_)
  intro m m' named _
  rw [named]

theorem asError_agree (h : Agree free ms ms') (fixed : ∀ name ∈ looked, ¬free name) :
    ∃ ns ns', asError (.object ms) = .object ns ∧ asError (.object ms') = .object ns' ∧
      Agree free ns ns' := by
  rw [asError, asError, h.errorLike (fixed "message" (by decide))]
  split
  · exact ⟨_, _, rfl, rfl, h.rearranged fixed⟩
  · exact ⟨_, _, rfl, rfl, h⟩

end Lifecycle.Log
