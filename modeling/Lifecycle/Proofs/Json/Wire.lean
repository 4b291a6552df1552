import Lifecycle.Proofs.Json.RoundTrip
import Lifecycle.Proofs.Text.Utf8

/- Printed values on the wire.

   A half of a surrogate pair is printed as an escape unless its other half follows, so
   every printed text is one of whole characters: its bytes decode to it, and what is
   read from them is the printed document. -/
namespace Lifecycle.Json

variable {indent t : Text} {level : Nat}

/-! ## Lexemes -/

theorem numericEscape_paired (u : UInt16) : (numericEscape u).Paired := by
  have hhex : ∀ n < 16, hexChar n < 0x80 := by decide
  have hu := u.toNat_lt
  refine Text.paired_of_ascii fun v hv => ?_
  simp only [numericEscape, List.mem_cons, List.not_mem_nil, or_false] at hv
  obtain rfl | rfl | rfl | rfl | rfl | rfl := hv
  · decide
  · decide
  · exact hhex _ (by omega)
  · exact hhex _ (Nat.mod_lt _ (by decide))
  · exact hhex _ (Nat.mod_lt _ (by decide))
  · exact hhex _ (Nat.mod_lt _ (by decide))

theorem quoteUnit_paired {u : UInt16} (h : u < 0xD800 ∨ 0xDFFF < u) : (quoteUnit u).Paired := by
  unfold quoteUnit
  by_cases hs : u = 0x22 ∨ u = 0x5C ∨ u = 0x08 ∨ u = 0x0C ∨ u = 0x0A ∨ u = 0x0D ∨ u = 0x09
  · obtain rfl | rfl | rfl | rfl | rfl | rfl | rfl := hs <;>
      exact Text.paired_of_all (by decide)
  · simp only [not_or] at hs
    obtain ⟨hq, hb, h8, hC, hA, hD, h9⟩ := hs
    simp only [hq, hb, h8, hC, hA, hD, h9, if_false]
    split
    · exact numericEscape_paired u
    · exact .unit h .nil

theorem quoteBody_paired (s : Text) : (quoteBody s).Paired := by
  induction s using quoteBody.induct with
  | case1 => exact .nil
  | case2 u hu v rest hv ih =>
    rw [quoteBody, if_pos hu]
    simp only [if_pos hv]
    exact .pair (by simpa using hu) (by simpa using hv) ih
  | case3 u hu v rest hv ih =>
    rw [quoteBody, if_pos hu]
    simp only [if_neg hv]
    exact (numericEscape_paired u).append ih
  | case4 u hu =>
    rw [quoteBody, if_pos hu]
    exact numericEscape_paired u
  | case5 u rest hu hu' ih =>
    rw [quoteBody.eq_def]
    simp only [if_neg hu, if_pos hu']
    exact (numericEscape_paired u).append ih
  | case6 u rest hu hu' ih =>
    rw [quoteBody.eq_def]
    simp only [if_neg hu, if_neg hu']
    refine (quoteUnit_paired ?_).append ih
    simp [UInt16.le_iff_toNat_le, UInt16.lt_iff_toNat_lt] at hu hu' ⊢
    omega

theorem quote_paired (s : Text) : (quote s).Paired :=
  .unit (by decide) ((quoteBody_paired s).append (.unit (by decide) .nil))

theorem digitText_ascii (ds : List (Fin 10)) : ∀ u ∈ Double.digitText ds, u < 0x80 := by
  intro u hu
  have hdigit : ∀ d, Text.ofDigit d < 0x80 := by decide
  obtain ⟨d, -, rfl⟩ := List.mem_map.1 hu
  exact hdigit d

theorem literal_paired (l : Literal) : l.text.Paired := by
  have hdigits (ds : List (Fin 10)) := Text.paired_of_ascii (digitText_ascii ds)
  rw [Literal.text_eq]
  refine .append ?_ ((hdigits _).append (.append ?_ ?_))
  · cases l.negative <;> exact Text.paired_of_all (by decide)
  · cases l.fraction with
    | nil => exact .nil
    | cons d ds => exact .unit (by decide) (hdigits _)
  · cases l.exponent with
    | none => exact .nil
    | some e =>
      obtain ⟨upper, sign, d, ds⟩ := e
      have hmark : ∀ upper : Bool, (if upper then Text.unit 'E' else Text.unit 'e') < 0xD800 := by decide
      refine .unit (.inl (hmark upper)) (.append ?_ (hdigits _))
      obtain _ | _ | _ := sign <;> exact Text.paired_of_all rfl

/-! ## Parts -/

theorem blank_paired (h : Blank t) : t.Paired := by
  refine Text.paired_of_ascii fun u hu => ?_
  have hspace := h u hu
  simp only [isSpace, Bool.or_eq_true, beq_iff_eq] at hspace
  obtain ((rfl | rfl) | rfl) | rfl := hspace <;> decide

theorem join_paired {separator : Text} (hs : separator.Paired) (ts : List Text)
    (h : ∀ t ∈ ts, t.Paired) : (Text.join separator ts).Paired := by
  induction ts with
  | nil => exact .nil
  | cons t ts ih =>
    cases ts with
    | nil => exact h t List.mem_cons_self
    | cons s ts =>
      exact ((h t List.mem_cons_self).append hs).append (ih fun s hs => h s (List.mem_cons_of_mem t hs))

theorem bracketed_paired (hi : Blank indent) {opening closing : UInt16} (ho : opening < 0xD800)
    (hc : closing < 0xD800) {parts : List Text} (h : ∀ p ∈ parts, p.Paired) :
    (bracketed indent level opening closing parts).Paired := by
  have hbreak := blank_paired (blank_newline indent)
  have hmargin (level : Nat) := blank_paired (blank_margin hi level)
  have hcomma : Text.Paired (Text.unit ',' :: newline indent) := .unit (by decide) hbreak
  have hparts := join_paired hcomma (parts.map (margin indent (level + 1) ++ ·)) (by
    intro t ht
    obtain ⟨p, hp, rfl⟩ := List.mem_map.1 ht
    exact (hmargin _).append (h p hp))
  exact ((((Text.Paired.unit (.inl ho) hbreak).append hparts).append hbreak).append (hmargin level)).append
    (.unit (.inl hc) .nil)

/-! ## Values -/

theorem object_paired (hi : Blank indent) {ms : Members}
    (h : ∀ t ∈ renderMembers indent (level + 1) ms, t.Paired) :
    (textOf indent level (.object ms)).Paired := by
  rw [textOf_object]
  split
  · exact Text.paired_of_all (by decide)
  split
  · exact Text.paired_of_all (by decide)
  · exact bracketed_paired hi (by decide) (by decide) h

mutual

theorem textOf_paired (hi : Blank indent) : ∀ (v : Value) (level : Nat), (textOf indent level v).Paired
  | .null, _ => Text.paired_of_all rfl
  | .bool true, _ => Text.paired_of_all rfl
  | .bool false, _ => Text.paired_of_all rfl
  | .number x, _ => by
    rw [textOf, render?]
    split
    · rename_i h
      rw [← Double.literal_text h]
      exact literal_paired _
    · exact Text.paired_of_all (by decide)
  | .exact l, _ => literal_paired l
  | .text s, _ => quote_paired s
  | .array items, level => by
    rw [textOf_array]
    split
    · exact Text.paired_of_all (by decide)
    · exact bracketed_paired hi (by decide) (by decide) (renderItems_paired hi items (level + 1))
  | .object ms, level => object_paired hi (renderMembers_paired hi ms (level + 1))
  | .error m ms, level => by
    rw [textOf_error]
    exact object_paired hi (renderMembers_paired hi ms (level + 1))
  | .undefined, _ => Text.paired_of_all rfl
  | .function, _ => Text.paired_of_all rfl
  | .symbol, _ => Text.paired_of_all rfl
  | .bigint n, _ => by
    rw [textOf, render?, ofInt_eq_literal]
    exact literal_paired _

theorem renderItems_paired (hi : Blank indent) : ∀ (items : List Value) (level : Nat),
    ∀ t ∈ renderItems indent level items, t.Paired
  | [], _, t, ht => by cases ht
  | v :: items, level, t, ht => by
    rw [renderItems_cons] at ht
    obtain rfl | ht := List.mem_cons.1 ht
    · exact textOf_paired hi v level
    · exact renderItems_paired hi items level t ht

theorem renderMembers_paired (hi : Blank indent) : ∀ (ms : List (Text × Value)) (level : Nat),
    ∀ t ∈ renderMembers indent level ms, t.Paired
  | [], _, t, ht => by cases ht
  | (name, v) :: ms, level, t, ht => by
    rw [renderMembers_cons] at ht
    split at ht
    · obtain rfl | ht := List.mem_cons.1 ht
      · refine ((quote_paired name).append ?_).append (textOf_paired hi v level)
        rw [colon_eq]
        exact .unit (by decide) (blank_paired (blank_afterColon indent))
      · exact renderMembers_paired hi ms level t ht
    · exact renderMembers_paired hi ms level t ht

end

/-- **What is sent is read again**: the bytes of a printed value hold the printed document. -/
theorem document?_decode (hi : Blank indent) (v : Value) :
    document? (Utf8.decode (Utf8.encode (print indent v))) = some v.written := by
  obtain ⟨u, t, ht, -, -, hmark⟩ := textOf_opens indent 0 v
  have hp : (print indent v).Paired := textOf_paired hi v 0
  have hhead : (print indent v).head? ≠ some 0xFEFF := by
    rw [print, ← textOf, ht]
    exact fun h => hmark (Option.some.inj h)
  rw [Utf8.decode_encode hp hhead, document?_print hi]

end Lifecycle.Json
