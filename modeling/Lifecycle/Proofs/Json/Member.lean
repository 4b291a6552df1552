import Lifecycle.Json.Value
import Mathlib

/- Members by name.

   Of members in order of appearance the last one of a name counts. `lastWins` keeps just
   these, one of each name, and `arrange` only reorders them: so an object shows under
   every name the last value that was given to it (`find?_arrange_lastWins`). -/
namespace Lifecycle.Member

variable {α : Type} {ms ns : List (Text × α)} {name k : Text} {v : α}

def last? (name : Text) : List (Text × α) → Option α
  | [] => none
  | (k, v) :: rest => (last? name rest).or (if k = name then some v else none)

/-! ## Finding -/

theorem find?_cons (name k : Text) (v : α) (ms : List (Text × α)) :
    find? name ((k, v) :: ms) = if k = name then some v else find? name ms := rfl

theorem find?_none (h : name ∉ ms.map Prod.fst) : find? name ms = none := by
  induction ms with
  | nil => rfl
  | cons m ms ih =>
    simp only [List.map_cons, List.mem_cons, not_or] at h
    rw [find?_cons, if_neg (Ne.symm h.1), ih h.2]

theorem mem_of_find? (h : find? name ms = some v) : (name, v) ∈ ms := by
  induction ms with
  | nil => cases h
  | cons m ms ih =>
    rw [find?_cons] at h
    split at h
    · rename_i hk
      rw [← hk, ← Option.some.inj h]
      exact List.mem_cons_self
    · exact List.mem_cons_of_mem m (ih h)

theorem find?_of_mem (hn : (ms.map Prod.fst).Nodup) (h : (name, v) ∈ ms) : find? name ms = some v := by
  induction ms with
  | nil => cases h
  | cons m ms ih =>
    rw [List.map_cons, List.nodup_cons] at hn
    obtain rfl | h := List.mem_cons.1 h
    · rw [find?_cons, if_pos rfl]
    · have hne : m.1 ≠ name := fun heq => hn.1 (heq ▸ List.mem_map_of_mem h)
      rw [find?_cons, if_neg hne, ih hn.2 h]

theorem find?_perm (h : ms.Perm ns) (hn : (ms.map Prod.fst).Nodup) : find? name ms = find? name ns := by
  have hn' : (ns.map Prod.fst).Nodup := (h.map Prod.fst).nodup_iff.1 hn
  cases hf : find? name ms with
  | some v => exact (find?_of_mem hn' (h.mem_iff.1 (mem_of_find? hf))).symm
  | none =>
    cases hg : find? name ns with
    | none => rfl
    | some v =>
      rw [find?_of_mem hn (h.mem_iff.2 (mem_of_find? hg))] at hf
      cases hf

theorem last?_eq_find? (hn : (ms.map Prod.fst).Nodup) : last? name ms = find? name ms := by
  induction ms with
  | nil => rfl
  | cons m ms ih =>
    rw [List.map_cons, List.nodup_cons] at hn
    rw [last?, find?_cons, ih hn.2]
    split
    · rename_i hk
      rw [find?_none (hk ▸ hn.1), Option.none_or]
    · rw [Option.or_none]

theorem mem_of_last? (h : last? name ms = some v) : (name, v) ∈ ms := by
  induction ms with
  | nil => cases h
  | cons m ms ih =>
    rw [last?] at h
    cases hl : last? name ms with
    | some w =>
      rw [hl, Option.some_or] at h
      exact List.mem_cons_of_mem m (ih (hl.trans h))
    | none =>
      rw [hl, Option.none_or] at h
      split at h
      · rename_i hk
        rw [← hk, ← Option.some.inj h]
        exact List.mem_cons_self
      · cases h

theorem last?_map {β : Type} (f : α → β) (ms : List (Text × α)) (name : Text) :
    last? name (ms.map fun m => (m.1, f m.2)) = (last? name ms).map f := by
  induction ms with
  | nil => rfl
  | cons m ms ih =>
    rw [List.map_cons, last?, last?, ih]
    cases last? name ms with
    | some w => rfl
    | none => simp [apply_ite]

theorem find?_map {β : Type} (f : α → β) (ms : List (Text × α)) (name : Text) :
    find? name (ms.map fun m => (m.1, f m.2)) = (find? name ms).map f := by
  induction ms with
  | nil => rfl
  | cons m ms ih =>
    rw [List.map_cons, find?_cons, ih, find?_cons]
    split <;> rfl

theorem find?_filter (keep : Text → Bool) (ms : List (Text × α)) (name : Text) :
    find? name (ms.filter fun m => keep m.1) = if keep name then find? name ms else none := by
  induction ms with
  | nil => simp [find?]
  | cons m ms ih =>
    rw [List.filter_cons, find?_cons]
    split
    · rw [find?_cons, ih]
      split
      · rename_i kept hm
        rw [if_pos (hm ▸ kept)]
      · rfl
    · rw [ih]
      split
      · rename_i dropped kept
        rw [if_neg fun hm : m.1 = name => dropped (hm ▸ kept)]
      · rfl

/-! ## Last wins -/

theorem find?_set : find? name (set k v ms) = if k = name then some v else find? name ms := by
  induction ms with
  | nil => rfl
  | cons m ms ih =>
    rw [set]
    split
    · rename_i hk
      rw [find?_cons, find?_cons, hk]
      split <;> rfl
    · rename_i hk
      rw [find?_cons, find?_cons, ih]
      split
      · rename_i hm
        rw [if_neg fun h => hk (hm.trans h.symm)]
      · rfl

theorem keys_set : (set k v ms).map Prod.fst =
    if k ∈ ms.map Prod.fst then ms.map Prod.fst else ms.map Prod.fst ++ [k] := by
  induction ms with
  | nil => rfl
  | cons m ms ih =>
    rw [set]
    split
    · rename_i hk
      simp [hk]
    · rename_i hk
      rw [List.map_cons, ih]
      have hne : k ≠ m.1 := Ne.symm hk
      by_cases hmem : k ∈ ms.map Prod.fst
      · simp [hmem]
      · simp [hmem, hne]

theorem nodup_set (h : (ms.map Prod.fst).Nodup) : ((set k v ms).map Prod.fst).Nodup := by
  rw [keys_set]
  split
  · exact h
  · exact List.nodup_append.2 ⟨h, List.nodup_singleton k, fun a ha b hb => by
      obtain rfl := List.mem_singleton.1 hb
      rintro rfl
      exact absurd ha ‹_›⟩

theorem find?_foldl (ms acc : List (Text × α)) :
    find? name (ms.foldl (fun acc m => set m.1 m.2 acc) acc) = (last? name ms).or (find? name acc) := by
  induction ms generalizing acc with
  | nil => rfl
  | cons m ms ih =>
    rw [List.foldl_cons, ih, find?_set, last?]
    cases last? name ms with
    | some w => rfl
    | none =>
      rw [Option.none_or, Option.none_or]
      split <;> rfl

theorem find?_lastWins (name : Text) (ms : List (Text × α)) :
    find? name (lastWins ms) = last? name ms := by
  rw [lastWins, find?_foldl]
  exact Option.or_none

theorem nodup_lastWins (ms : List (Text × α)) : ((lastWins ms).map Prod.fst).Nodup := by
  have step (ms acc : List (Text × α)) (h : (acc.map Prod.fst).Nodup) :
      ((ms.foldl (fun acc m => set m.1 m.2 acc) acc).map Prod.fst).Nodup := by
    induction ms generalizing acc with
    | nil => exact h
    | cons m ms ih => exact ih _ (nodup_set h)
  exact step ms [] List.nodup_nil

/-! ## Arrangement -/

theorem insertByIndex_perm (i : Nat) (m : Text × α) (ns : List (Nat × (Text × α))) :
    (insertByIndex i m ns).Perm ((i, m) :: ns) := by
  induction ns with
  | nil => exact .refl _
  | cons n ns ih =>
    rw [insertByIndex]
    split
    · exact .refl _
    · exact (ih.cons n).trans (.swap ..)

theorem sorted_perm (ns : List (Nat × (Text × α))) :
    (ns.foldr (fun im acc => insertByIndex im.1 im.2 acc) []).Perm ns := by
  induction ns with
  | nil => exact .refl _
  | cons n ns ih => exact (insertByIndex_perm n.1 n.2 _).trans (ih.cons n)

theorem indexed_eq (ms : List (Text × α)) :
    (ms.filterMap fun m => (index? m.1).map fun i => (i, m)).map (·.2) =
      ms.filter fun m => (index? m.1).isSome := by
  induction ms with
  | nil => rfl
  | cons m ms ih =>
    cases h : index? m.1 <;> simp_all

theorem arrange_perm (ms : List (Text × α)) : (arrange ms).Perm ms := by
  unfold arrange
  simp only
  have hsorted := (sorted_perm (ms.filterMap fun m => (index? m.1).map fun i => (i, m))).map (·.2)
  rw [indexed_eq] at hsorted
  refine (hsorted.append_right _).trans ?_
  have hsplit := List.filter_append_perm (fun m : Text × α => (index? m.1).isSome) ms
  simpa using hsplit

theorem nodup_arrange (h : (ms.map Prod.fst).Nodup) : ((arrange ms).map Prod.fst).Nodup :=
  ((arrange_perm ms).map Prod.fst).nodup_iff.2 h

/-- **An object shows the last value of every name.** -/
theorem find?_arrange_lastWins (name : Text) (ms : List (Text × α)) :
    find? name (arrange (lastWins ms)) = last? name ms := by
  rw [find?_perm (arrange_perm _) (nodup_arrange (nodup_lastWins ms)), find?_lastWins]

end Lifecycle.Member
