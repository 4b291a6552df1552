import Lifecycle.Proofs.Json.Member

/- The order of members.

   `lastWins` lists the names where they first appear (`keys_lastWins`), and `arrange`
   puts the indices in front, ascending, and leaves the other names as they are. Both look
   at names alone, so they commute with any change of the values, and a list that has been
   through them comes out unchanged (`arrange_of_names`, `lastWins_of_nodup`). -/
namespace Lifecycle.Member

variable {α β : Type} {ms ns : List (Text × α)} {name k : Text} {v : α}

/-! ## Values do not matter -/

theorem set_map (f : α → β) (k : Text) (v : α) (ms : List (Text × α)) :
    set k (f v) (ms.map fun m => (m.1, f m.2)) = (set k v ms).map fun m => (m.1, f m.2) := by
  induction ms with
  | nil => rfl
  | cons m ms ih =>
    rw [List.map_cons, set, set]
    split
    · rfl
    · rw [ih]
      rfl

theorem lastWins_map (f : α → β) (ms : List (Text × α)) :
    lastWins (ms.map fun m => (m.1, f m.2)) = (lastWins ms).map fun m => (m.1, f m.2) := by
  have step (ms acc : List (Text × α)) :
      (ms.map fun m => (m.1, f m.2)).foldl (fun acc m => set m.1 m.2 acc)
        (acc.map fun m => (m.1, f m.2)) =
      (ms.foldl (fun acc m => set m.1 m.2 acc) acc).map fun m => (m.1, f m.2) := by
    induction ms generalizing acc with
    | nil => rfl
    | cons m ms ih =>
      rw [List.map_cons, List.foldl_cons, List.foldl_cons, ← ih]
      exact congrArg (List.foldl _ · _) (set_map f m.1 m.2 acc)
  exact step ms []

theorem insertByIndex_map (f : α → β) (i : Nat) (m : Text × α) (ns : List (Nat × (Text × α))) :
    insertByIndex i (m.1, f m.2) (ns.map fun n => (n.1, n.2.1, f n.2.2)) =
      (insertByIndex i m ns).map fun n => (n.1, n.2.1, f n.2.2) := by
  induction ns with
  | nil => rfl
  | cons n ns ih =>
    rw [List.map_cons, insertByIndex, insertByIndex]
    split
    · rfl
    · rw [ih]
      rfl

theorem arrange_map (f : α → β) (ms : List (Text × α)) :
    arrange (ms.map fun m => (m.1, f m.2)) = (arrange ms).map fun m => (m.1, f m.2) := by
  have indexed : ((ms.map fun m => (m.1, f m.2)).filterMap fun m => (index? m.1).map fun i => (i, m)) =
      (ms.filterMap fun m => (index? m.1).map fun i => (i, m)).map fun n => (n.1, n.2.1, f n.2.2) := by
    rw [List.filterMap_map, List.map_filterMap]
    congr 1
    funext m
    cases h : index? m.1 <;> simp [h]
  have sorted (ns : List (Nat × (Text × α))) :
      (ns.map fun n => (n.1, n.2.1, f n.2.2)).foldr (fun im acc => insertByIndex im.1 im.2 acc) [] =
      (ns.foldr (fun im acc => insertByIndex im.1 im.2 acc) []).map fun n => (n.1, n.2.1, f n.2.2) := by
    induction ns with
    | nil => rfl
    | cons n ns ih =>
      rw [List.map_cons, List.foldr_cons, List.foldr_cons, ih]
      exact insertByIndex_map f n.1 n.2 _
  unfold arrange
  simp only [indexed, sorted, List.map_append, List.map_map, List.filter_map]
  rfl

/-- The names alone decide in which order they are arranged. -/
theorem names_arrange (ms : List (Text × α)) : (arrange ms).map Prod.fst =
    (arrange (ms.map fun m => (m.1, ()))).map Prod.fst := by
  rw [arrange_map fun _ => (), List.map_map]
  rfl

theorem eq_of_names (hn : (ms.map Prod.fst).Nodup) (hk : ms.map Prod.fst = ns.map Prod.fst)
    (h : ∀ name, find? name ms = find? name ns) : ms = ns := by
  induction ms generalizing ns with
  | nil =>
    cases ns with
    | nil => rfl
    | cons n ns => cases hk
  | cons m ms ih =>
    cases ns with
    | nil => cases hk
    | cons n ns =>
      obtain ⟨k, v⟩ := m
      obtain ⟨k', v'⟩ := n
      rw [List.map_cons, List.map_cons, List.cons.injEq] at hk
      obtain ⟨rfl, hk⟩ := hk
      rw [List.map_cons, List.nodup_cons] at hn
      have hhead := h k
      rw [find?_cons, find?_cons, if_pos rfl, if_pos rfl] at hhead
      rw [Option.some.inj hhead, ih hn.2 hk]
      intro name
      by_cases hname : k = name
      · rw [find?_none (hname ▸ hn.1), find?_none (hname ▸ hk ▸ hn.1)]
      · have htail := h name
        rwa [find?_cons, find?_cons, if_neg hname, if_neg hname] at htail

/-! ## Last members -/

theorem last?_eq_getLast? (name : Text) (ms : List (Text × α)) :
    last? name ms = ((ms.filter fun m => m.1 = name).map (·.2)).getLast? := by
  induction ms with
  | nil => rfl
  | cons m ms ih =>
    rw [last?, ih]
    by_cases hm : m.1 = name
    · rw [if_pos hm, List.filter_cons_of_pos (by simpa using hm), List.map_cons, List.getLast?_cons]
      cases ((ms.filter fun m => m.1 = name).map (·.2)).getLast? <;> rfl
    · rw [if_neg hm, List.filter_cons_of_neg (by simpa using hm), Option.or_none]

theorem last?_filter (p : Text → Bool) (ms : List (Text × α)) (h : p name = true) :
    last? name (ms.filter fun m => p m.1) = last? name ms := by
  rw [last?_eq_getLast?, last?_eq_getLast?, List.filter_filter]
  congr 3
  funext m
  by_cases hm : m.1 = name
  · simp [hm, h]
  · simp [hm]

/-! ## First appearance -/

theorem set_new (h : k ∉ ms.map Prod.fst) : set k v ms = ms ++ [(k, v)] := by
  induction ms with
  | nil => rfl
  | cons m ms ih =>
    simp only [List.map_cons, List.mem_cons, not_or] at h
    rw [set, if_neg (Ne.symm h.1), ih h.2]
    rfl

theorem lastWins_of_nodup (h : (ms.map Prod.fst).Nodup) : lastWins ms = ms := by
  have step (ms acc : List (Text × α)) (h : ((acc ++ ms).map Prod.fst).Nodup) :
      ms.foldl (fun acc m => set m.1 m.2 acc) acc = acc ++ ms := by
    induction ms generalizing acc with
    | nil => simp
    | cons m ms ih =>
      have hnew : m.1 ∉ acc.map Prod.fst := by
        rw [List.map_append, List.nodup_append] at h
        intro hm
        exact h.2.2 _ hm _ (List.mem_map_of_mem List.mem_cons_self) rfl
      rw [List.foldl_cons, set_new hnew, ih _ (by simpa using h)]
      simp
  exact step ms [] h

theorem keys_lastWins (ms : List (Text × α)) :
    (lastWins ms).map Prod.fst = (ms.map Prod.fst).eraseDups := by
  have step (ms acc : List (Text × α)) :
      (ms.foldl (fun acc m => set m.1 m.2 acc) acc).map Prod.fst = acc.map Prod.fst ++
        ((ms.map Prod.fst).filter fun k => k ∉ acc.map Prod.fst).eraseDups := by
    induction ms generalizing acc with
    | nil => simp
    | cons m ms ih =>
      rw [List.foldl_cons, ih, keys_set, List.map_cons]
      by_cases hm : m.1 ∈ acc.map Prod.fst
      · rw [if_pos hm, List.filter_cons_of_neg (by simpa using hm)]
      · rw [if_neg hm, List.filter_cons_of_pos (by simpa using hm), List.eraseDups_cons,
          List.filter_filter, List.append_assoc, List.singleton_append]
        have hseen (k : Text) : decide (k ∉ acc.map Prod.fst ++ [m.1]) =
            (!(k == m.1) && decide (k ∉ acc.map Prod.fst)) := by
          rw [Bool.eq_iff_iff]
          simp only [decide_eq_true_eq, List.mem_append, List.mem_singleton, not_or, Bool.and_eq_true,
            Bool.not_eq_true', beq_eq_false_iff_ne]
          exact and_comm
        simp only [hseen]
  have h := step ms []
  simpa [lastWins] using h

/-! ## Indices first -/

/-- A list whose indices ascend. -/
def Ascending (ns : List (Nat × (Text × α))) : Prop := ns.Pairwise fun a b => a.1 ≤ b.1

theorem insertByIndex_ascending {i : Nat} {m : Text × α} {ns : List (Nat × (Text × α))}
    (h : Ascending ns) : Ascending (insertByIndex i m ns) := by
  induction ns with
  | nil => exact List.pairwise_singleton _ _
  | cons n ns ih =>
    have hn := List.pairwise_cons.1 h
    rw [insertByIndex]
    split
    · rename_i hle
      refine List.pairwise_cons.2 ⟨?_, h⟩
      intro b hb
      obtain rfl | hb := List.mem_cons.1 hb
      · exact hle
      · exact Nat.le_trans hle (hn.1 b hb)
    · rename_i hle
      refine List.pairwise_cons.2 ⟨?_, ih hn.2⟩
      intro b hb
      obtain rfl | hb := List.mem_cons.1 ((insertByIndex_perm i m ns).mem_iff.1 hb)
      · exact Nat.le_of_lt (Nat.lt_of_not_ge hle)
      · exact hn.1 b hb

theorem sorted_ascending (ns : List (Nat × (Text × α))) :
    Ascending (ns.foldr (fun im acc => insertByIndex im.1 im.2 acc) []) := by
  induction ns with
  | nil => exact List.Pairwise.nil
  | cons n ns ih => exact insertByIndex_ascending ih

theorem insertByIndex_first {i : Nat} {m : Text × α} {ns : List (Nat × (Text × α))}
    (h : ∀ n ∈ ns, i ≤ n.1) : insertByIndex i m ns = (i, m) :: ns := by
  cases ns with
  | nil => rfl
  | cons n ns => rw [insertByIndex, if_pos (h n List.mem_cons_self)]

theorem sorted_of_ascending {ns : List (Nat × (Text × α))} (h : Ascending ns) :
    ns.foldr (fun im acc => insertByIndex im.1 im.2 acc) [] = ns := by
  induction ns with
  | nil => rfl
  | cons n ns ih =>
    have hn := List.pairwise_cons.1 h
    rw [List.foldr_cons, ih hn.2, insertByIndex_first hn.1]

theorem arrange_split (ms : List (Text × α)) : ∃ ns : List (Nat × (Text × α)),
    arrange ms = ns.map (·.2) ++ ms.filter (fun m => (index? m.1).isNone) ∧ Ascending ns ∧
      (∀ n ∈ ns, index? n.2.1 = some n.1) ∧
      (ns.map (·.2)).Perm (ms.filter fun m => (index? m.1).isSome) := by
  refine ⟨_, rfl, sorted_ascending _, ?_, ?_⟩
  · intro n hn
    obtain ⟨m, -, hm⟩ := List.mem_filterMap.1 ((sorted_perm _).mem_iff.1 hn)
    obtain ⟨i, hi, rfl⟩ := Option.map_eq_some_iff.1 hm
    exact hi
  · rw [← indexed_eq]
    exact (sorted_perm _).map _

theorem arrange_arrange (ms : List (Text × α)) : arrange (arrange ms) = arrange ms := by
  obtain ⟨ns, heq, hasc, hidx, -⟩ := arrange_split ms
  have hfirst : ((ns.map (·.2)).filterMap fun m => (index? m.1).map fun i => (i, m)) = ns := by
    rw [List.filterMap_map]
    conv_rhs => rw [← List.map_id ns, ← List.filterMap_eq_map]
    apply List.filterMap_congr
    intro n hn
    simp [hidx n hn]
  have hothers : ((ms.filter fun m => (index? m.1).isNone).filterMap fun m =>
      (index? m.1).map fun i => (i, m)) = [] := by
    simp [List.filterMap_eq_nil_iff]
  have hnone : (ns.map (·.2)).filter (fun m => (index? m.1).isNone) = [] := by
    rw [List.filter_eq_nil_iff]
    intro m hm
    obtain ⟨n, hn, rfl⟩ := List.mem_map.1 hm
    simp [hidx n hn]
  rw [heq]
  conv_lhs => unfold arrange
  simp only [List.filterMap_append, hfirst, hothers, List.append_nil, sorted_of_ascending hasc,
    List.filter_append, hnone, List.nil_append, List.filter_filter, Bool.and_self]

/-- How an object shows names: first those that are indices, in ascending order, and then the
    others, where each of them first appears. -/
def Shows (names shown : List Text) : Prop :=
  ∃ indices : List Text, shown = indices ++ names.eraseDups.filter (fun k => (index? k).isNone) ∧
    indices.Perm (names.eraseDups.filter fun k => (index? k).isSome) ∧
    indices.Pairwise fun a b => ∃ i j, index? a = some i ∧ index? b = some j ∧ i ≤ j

theorem shows_arrange (ms : List (Text × α)) :
    Shows (ms.map Prod.fst) ((arrange (lastWins ms)).map Prod.fst) := by
  have hnames (p : Text → Bool) : ((lastWins ms).filter fun m => p m.1).map Prod.fst =
      (ms.map Prod.fst).eraseDups.filter p := by
    rw [← keys_lastWins, List.filter_map]
    rfl
  obtain ⟨ns, heq, hasc, hidx, hperm⟩ := arrange_split (lastWins ms)
  refine ⟨(ns.map (·.2)).map Prod.fst, ?_, ?_, ?_⟩
  · rw [heq, List.map_append, hnames fun k => (index? k).isNone]
  · rw [← hnames fun k => (index? k).isSome]
    exact hperm.map Prod.fst
  · rw [List.map_map, List.pairwise_map]
    refine hasc.imp_of_mem ?_
    intro a b ha hb hle
    exact ⟨a.1, b.1, hidx a ha, hidx b hb, hle⟩

theorem arrange_of_names {ns : List (Text × β)} (hn : (ms.map Prod.fst).Nodup)
    (h : ms.map Prod.fst = (arrange ns).map Prod.fst) : arrange ms = ms := by
  have hunit : ms.map (fun m => (m.1, ())) = arrange (ns.map fun n => (n.1, ())) := by
    have heq := congrArg (List.map fun name => (name, ())) h
    rw [List.map_map, List.map_map] at heq
    rw [arrange_map fun _ => ()]
    exact heq
  refine eq_of_names (nodup_arrange hn) ?_ ?_
  · rw [names_arrange, hunit, arrange_arrange, ← names_arrange, h]
  · intro name
    exact find?_perm (arrange_perm ms) (nodup_arrange hn)

end Lifecycle.Member
