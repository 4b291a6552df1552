import Lifecycle.Text.Utf8
import Mathlib

/- Decoding undoes encoding.

   A text whose surrogates all stand in pairs is a sequence of characters, and the bytes
   of each character decode to its units again. Only a leading byte order mark would be
   lost on the way. -/
namespace Lifecycle

/-- A text in which every half of a surrogate pair has its other half. -/
inductive Text.Paired : Text → Prop where
  | nil : Paired []
  | unit {u : UInt16} {t : Text} (h : u < 0xD800 ∨ 0xDFFF < u) (ht : Paired t) : Paired (u :: t)
  | pair {u v : UInt16} {t : Text} (hu : 0xD800 ≤ u ∧ u < 0xDC00) (hv : 0xDC00 ≤ v ∧ v < 0xE000)
      (ht : Paired t) : Paired (u :: v :: t)

namespace Text

variable {s t : Text}

theorem Paired.append (hs : s.Paired) (ht : t.Paired) : Paired (s ++ t) := by
  induction hs with
  | nil => exact ht
  | unit h _ ih => exact .unit h ih
  | pair hu hv _ ih => exact .pair hu hv ih

theorem paired_of_ascii (h : ∀ u ∈ t, u < 0x80) : t.Paired := by
  induction t with
  | nil => exact .nil
  | cons u t ih =>
    have hu := UInt16.lt_iff_toNat_lt.1 (h u List.mem_cons_self)
    refine .unit (.inl (UInt16.lt_iff_toNat_lt.2 ?_)) (ih fun v hv => h v (List.mem_cons_of_mem u hv))
    simp at hu ⊢
    omega

theorem paired_of_all (h : t.all (· < 0x80) = true) : t.Paired :=
  paired_of_ascii fun u hu => of_decide_eq_true (List.all_eq_true.1 h u hu)

theorem toNat_ofNat_valid {n : Nat} (h : n < 0xD800 ∨ 0xDFFF < n ∧ n < 0x110000) : (Char.ofNat n).toNat = n := by
  rw [Char.toNat_ofNat, if_pos (show n.isValidChar from h)]

theorem Paired.flatMap_toChars (h : t.Paired) : t.toChars.flatMap ofChar = t := by
  induction h with
  | nil => rfl
  | @unit u t hu ht ih =>
    have hlt := u.toNat_lt
    rw [UInt16.lt_iff_toNat_lt, UInt16.lt_iff_toNat_lt] at hu
    simp at hu
    have hhigh : ¬ (decide (0xD800 ≤ u) && decide (u < 0xDC00)) = true := by
      simp [UInt16.le_iff_toNat_le, UInt16.lt_iff_toNat_lt]
      omega
    have hlow : ¬ (decide (0xDC00 ≤ u) && decide (u < 0xE000)) = true := by
      simp [UInt16.le_iff_toNat_le, UInt16.lt_iff_toNat_lt]
      omega
    rw [toChars.eq_def]
    simp only [if_neg hhigh, if_neg hlow, List.flatMap_cons, ih]
    rw [ofChar, toNat_ofNat_valid (by omega), if_pos (by omega), UInt16.ofNat_toNat]
    rfl
  | @pair u v t hu hv ht ih =>
    have hhigh : (decide (0xD800 ≤ u) && decide (u < 0xDC00)) = true := by simpa using hu
    have hlow : (decide (0xDC00 ≤ v) && decide (v < 0xE000)) = true := by simpa using hv
    rw [UInt16.le_iff_toNat_le, UInt16.lt_iff_toNat_lt] at hu hv
    simp at hu hv
    rw [toChars.eq_def]
    simp only [if_pos hhigh, if_pos hlow, List.flatMap_cons, ih]
    rw [ofChar, toNat_ofNat_valid (by omega), if_neg (by omega),
      show 0xD7C0 + ((u.toNat - 0xD7C0) * 0x400 + (v.toNat - 0xDC00)) / 0x400 = u.toNat by omega,
      show 0xDC00 + ((u.toNat - 0xD7C0) * 0x400 + (v.toNat - 0xDC00)) % 0x400 = v.toNat by omega,
      UInt16.ofNat_toNat, UInt16.ofNat_toNat]
    rfl

end Text

namespace Utf8

variable {k value due least greatest : Nat}

theorem decodeFrom_begin {p : Pending} (hk : k < 0x100) (hlow : 0xC2 ≤ k)
    (hp : (begin (UInt8.ofNat k)).2 = some p) (bs : List UInt8) :
    decodeFrom none (UInt8.ofNat k :: bs) = decodeFrom (some p) bs := by
  have htext : (begin (UInt8.ofNat k)).1 = [] := by
    unfold begin at hp ⊢
    rw [UInt8.toNat_ofNat_of_lt' hk] at hp ⊢
    simp only at hp ⊢
    rw [if_neg (by omega)] at hp ⊢
    split
    · rfl
    split
    · rfl
    split
    · rfl
    · rw [if_neg ‹_›, if_neg ‹_›, if_neg ‹_›] at hp
      cases hp
  rw [decodeFrom, hp, htext]
  rfl

theorem decodeFrom_more (hl : least ≤ k) (hg : k ≤ greatest) (hk : k < 0x100) (bs : List UInt8) :
    decodeFrom (some ⟨value, due + 2, least, greatest⟩) (UInt8.ofNat k :: bs) =
      decodeFrom (some ⟨value * 0x40 + (k - 0x80), due + 1, 0x80, 0xBF⟩) bs := by
  have hb := UInt8.toNat_ofNat_of_lt' hk
  rw [decodeFrom, if_pos ⟨by rw [hb]; exact hl, by rw [hb]; exact hg⟩, hb]
  rfl

theorem decodeFrom_last (hl : least ≤ k) (hg : k ≤ greatest) (hk : k < 0x100) (bs : List UInt8) :
    decodeFrom (some ⟨value, 1, least, greatest⟩) (UInt8.ofNat k :: bs) =
      Text.ofChar (Char.ofNat (value * 0x40 + (k - 0x80))) ++ decodeFrom none bs := by
  have hb := UInt8.toNat_ofNat_of_lt' hk
  rw [decodeFrom, if_pos ⟨by rw [hb]; exact hl, by rw [hb]; exact hg⟩, hb]
  rfl

theorem begin_two (h : 0xC2 ≤ k) (h' : k ≤ 0xDF) :
    (begin (UInt8.ofNat k)).2 = some ⟨k - 0xC0, 1, 0x80, 0xBF⟩ := by
  rw [begin, UInt8.toNat_ofNat_of_lt' (show k < 0x100 by omega), if_neg (by omega), if_pos ⟨h, h'⟩]

theorem begin_three (h : 0xE0 ≤ k) (h' : k ≤ 0xEF) :
    (begin (UInt8.ofNat k)).2 = some ⟨k - 0xE0, 2, if k = 0xE0 then 0xA0 else 0x80,
      if k = 0xED then 0x9F else 0xBF⟩ := by
  rw [begin, UInt8.toNat_ofNat_of_lt' (show k < 0x100 by omega), if_neg (by omega),
    if_neg (by omega), if_pos ⟨h, h'⟩]

theorem begin_four (h : 0xF0 ≤ k) (h' : k ≤ 0xF4) :
    (begin (UInt8.ofNat k)).2 = some ⟨k - 0xF0, 3, if k = 0xF0 then 0x90 else 0x80,
      if k = 0xF4 then 0x8F else 0xBF⟩ := by
  rw [begin, UInt8.toNat_ofNat_of_lt' (show k < 0x100 by omega), if_neg (by omega),
    if_neg (by omega), if_neg (by omega), if_pos ⟨h, h'⟩]

theorem decodeFrom_encodeChar (c : Char) (bs : List UInt8) :
    decodeFrom none (encodeChar c ++ bs) = Text.ofChar c ++ decodeFrom none bs := by
  have hc : c.toNat < 0xD800 ∨ 0xDFFF < c.toNat ∧ c.toNat < 0x110000 := c.valid
  have hback : Char.ofNat c.toNat = c := Char.ofNat_toNat c
  unfold encodeChar
  generalize hn : c.toNat = n at hc hback ⊢
  simp only
  split
  · have hb := UInt8.toNat_ofNat_of_lt' (show n < 0x100 by omega)
    rw [List.singleton_append, decodeFrom, begin, hb, Text.ofChar, hn, if_pos ‹_›, if_pos (by omega)]
  -- Each part of the number comes back from its byte, and together they are the number.
  split
  · simp only [List.cons_append, List.nil_append]
    rw [decodeFrom_begin (by omega) (by omega) (begin_two (by omega) (by omega)),
      decodeFrom_last (by omega) (by omega) (by omega),
      show (0xC0 + n / 0x40 - 0xC0) * 0x40 + (0x80 + n % 0x40 - 0x80) = n by omega, hback]
  split
  · simp only [List.cons_append, List.nil_append]
    rw [decodeFrom_begin (by omega) (by omega) (begin_three (by omega) (by omega)),
      decodeFrom_more (by split <;> omega) (by split <;> omega) (by omega),
      decodeFrom_last (by omega) (by omega) (by omega),
      show ((0xE0 + n / 0x1000 - 0xE0) * 0x40 + (0x80 + n / 0x40 % 0x40 - 0x80)) * 0x40 +
        (0x80 + n % 0x40 - 0x80) = n by omega, hback]
  · simp only [List.cons_append, List.nil_append]
    rw [decodeFrom_begin (by omega) (by omega) (begin_four (by omega) (by omega)),
      decodeFrom_more (by split <;> omega) (by split <;> omega) (by omega),
      decodeFrom_more (by omega) (by omega) (by omega),
      decodeFrom_last (by omega) (by omega) (by omega),
      show (((0xF0 + n / 0x40000 - 0xF0) * 0x40 + (0x80 + n / 0x1000 % 0x40 - 0x80)) * 0x40 +
        (0x80 + n / 0x40 % 0x40 - 0x80)) * 0x40 + (0x80 + n % 0x40 - 0x80) = n by omega, hback]

theorem decodeFrom_encode (cs : List Char) :
    decodeFrom none (cs.flatMap encodeChar) = cs.flatMap Text.ofChar := by
  induction cs with
  | nil => rfl
  | cons c cs ih => rw [List.flatMap_cons, decodeFrom_encodeChar, ih, List.flatMap_cons]

/-- **Decoding undoes encoding**, for texts of whole characters without a byte order mark. -/
theorem decode_encode {t : Text} (h : t.Paired) (hb : t.head? ≠ some 0xFEFF) :
    decode (encode t) = t := by
  have ht : decodeFrom none (encode t) = t := by rw [encode, decodeFrom_encode, h.flatMap_toChars]
  rw [decode, ht]
  split
  · exact absurd rfl hb
  · rfl

end Utf8

end Lifecycle
