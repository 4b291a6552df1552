import Lifecycle.Json.Printer
import Lifecycle.Json.Reader
import Lifecycle.Proofs.Number.Digits

/- Lexemes are read as they were written.

   A number is read up to a unit that cannot go on with it, and a text up to its closing
   quote; both come back unchanged, whatever follows them. -/
namespace Lifecycle

open Double (digitText)
open Decimal (digitsOf ofDigits)

/-! ## Digits -/

theorem digit?_ofDigit (d : Fin 10) : Text.digit? (Text.ofDigit d) = some d := by
  revert d
  decide

/-- A text that does not begin with a digit. -/
def Text.NoDigit (t : Text) : Prop := ∀ u ∈ t.head?, Text.digit? u = none

theorem spanDigits_append (ds : List (Fin 10)) {t : Text} (h : t.NoDigit) :
    Text.spanDigits (digitText ds ++ t) = (ds, t) := by
  induction ds with
  | nil =>
    cases t with
    | nil => rfl
    | cons u t => simp [digitText, Text.spanDigits, h u rfl]
  | cons d ds ih =>
    show Text.spanDigits (Text.ofDigit d :: (digitText ds ++ t)) = _
    simp [Text.spanDigits, digit?_ofDigit, ih]

/-! ## Numbers -/

/-- A text that does not go on with a number: it begins with no digit, point or exponent. -/
def Text.EndsNumber (t : Text) : Prop :=
  ∀ u ∈ t.head?, Text.digit? u = none ∧ u ≠ 0x2E ∧ u ≠ Text.unit 'e' ∧ u ≠ Text.unit 'E'

theorem Text.EndsNumber.noDigit {t : Text} (h : t.EndsNumber) : t.NoDigit := fun u hu => (h u hu).1

theorem ofDigit_ne (d : Fin 10) : Text.ofDigit d ≠ 0x2B ∧ Text.ofDigit d ≠ 0x2D := by
  revert d
  decide

namespace Literal

def fractionText (ds : List (Fin 10)) : Text :=
  if ds.isEmpty then [] else Text.unit '.' :: digitText ds

def exponentText : Option Exponent → Text
  | none => []
  | some e => e.text

theorem text_eq (l : Literal) : l.text = (if l.negative then [Text.unit '-'] else []) ++
    (digitText (digitsOf l.whole) ++ (fractionText l.fraction ++ exponentText l.exponent)) := by
  rw [text, ofNat_eq_digitText, List.append_assoc, List.append_assoc]
  cases h : l.exponent <;> simp [fractionText, exponentText]

variable {t : Text}

theorem readWhole_append (n : Nat) (h : t.NoDigit) :
    readWhole (digitText (digitsOf n) ++ t) = some (n, t) := by
  rcases Nat.eq_zero_or_pos n with rfl | hn
  · rfl
  · obtain ⟨d, ds, hds, hd⟩ := Decimal.digitsOf_head hn
    have hvalue := Decimal.ofDigits_digitsOf n
    rw [hds] at hvalue ⊢
    show readWhole (Text.ofDigit d :: (digitText ds ++ t)) = _
    have hd' : d.val ≠ 0 := fun h0 => hd (Fin.ext h0)
    simp [readWhole, digit?_ofDigit, hd', spanDigits_append ds h, hvalue]

theorem readFraction_append (ds : List (Fin 10)) (h : t.NoDigit) (hp : ∀ u ∈ t.head?, u ≠ 0x2E) :
    readFraction (fractionText ds ++ t) = some (ds, t) := by
  cases ds with
  | nil =>
    show readFraction t = _
    unfold readFraction
    split
    · exact absurd rfl (hp _ rfl)
    · rfl
  | cons d ds =>
    show readFraction (0x2E :: (digitText (d :: ds) ++ t)) = _
    simp only [readFraction, spanDigits_append _ h]

theorem readExponentDigits_append (upper : Bool) (sign : Option Bool) (d : Fin 10)
    (ds : List (Fin 10)) (h : t.NoDigit) :
    readExponentDigits upper sign (digitText (d :: ds) ++ t) = some (some ⟨upper, sign, d, ds⟩, t) := by
  rw [readExponentDigits, spanDigits_append _ h]

theorem readExponent_append (e : Option Exponent) (h : t.EndsNumber) :
    readExponent (exponentText e ++ t) = some (e, t) := by
  cases e with
  | none =>
    cases t with
    | nil => rfl
    | cons u t =>
      obtain ⟨-, -, he, hE⟩ := h u rfl
      simp [exponentText, readExponent, he, hE]
  | some e =>
    obtain ⟨upper, sign, d, ds⟩ := e
    have hread (sign : Option Bool) := readExponentDigits_append upper sign d ds h.noDigit
    have hmark : ((if upper then Text.unit 'E' else Text.unit 'e') = Text.unit 'e' ∨
        (if upper then Text.unit 'E' else Text.unit 'e') = Text.unit 'E') ∧
        ((if upper then Text.unit 'E' else Text.unit 'e') == Text.unit 'E') = upper := by
      cases upper <;> decide
    rw [exponentText, Exponent.text]
    cases sign with
    | some negative =>
      cases negative with
      | false =>
        rw [← hread, List.cons_append, readExponent, if_pos hmark.1, hmark.2]
        rfl
      | true =>
        rw [← hread, List.cons_append, readExponent, if_pos hmark.1, hmark.2]
        rfl
    | none =>
      rw [← hread, List.cons_append, readExponent, if_pos hmark.1, hmark.2]
      -- The first digit is no sign.
      simp only [List.nil_append]
      split
      · rename_i heq
        exact absurd (List.cons.inj heq).1 (ofDigit_ne d).1
      · rename_i heq
        exact absurd (List.cons.inj heq).1 (ofDigit_ne d).2
      · rfl

theorem exponentText_noDigit (e : Option Exponent) (h : t.EndsNumber) :
    (exponentText e ++ t).NoDigit ∧ ∀ u ∈ (exponentText e ++ t).head?, u ≠ 0x2E := by
  cases e with
  | none => exact ⟨h.noDigit, fun u hu => (h u hu).2.1⟩
  | some e =>
    have hmark : ∀ upper : Bool, Text.digit? (if upper then Text.unit 'E' else Text.unit 'e') = none ∧
        (if upper then Text.unit 'E' else Text.unit 'e') ≠ 0x2E := by decide
    constructor <;> intro u hu <;> cases hu
    · exact (hmark e.upper).1
    · exact (hmark e.upper).2

theorem fractionText_noDigit (ds : List (Fin 10)) (h : t.NoDigit) : (fractionText ds ++ t).NoDigit := by
  cases ds with
  | nil => exact h
  | cons d ds =>
    intro u hu
    cases hu
    decide

def readUnsigned (negative : Bool) (t : Text) : Option (Literal × Text) := do
  let (whole, t) ← readWhole t
  let (fraction, t) ← readFraction t
  let (exponent, t) ← readExponent t
  some (⟨negative, whole, fraction, exponent⟩, t)

theorem read_unsigned {u : UInt16} (hu : u ≠ 0x2D) (t : Text) :
    read (u :: t) = readUnsigned false (u :: t) := by
  unfold read
  split
  rename_i heq
  split at heq
  · rename_i h
    exact absurd (List.cons.inj h).1 hu
  · cases heq
    rfl

theorem readUnsigned_append (negative : Bool) (whole : Nat) (fraction : List (Fin 10))
    (e : Option Exponent) (h : t.EndsNumber) :
    readUnsigned negative (digitText (digitsOf whole) ++
      (fractionText fraction ++ (exponentText e ++ t))) = some (⟨negative, whole, fraction, e⟩, t) := by
  obtain ⟨hdigit, hpoint⟩ := exponentText_noDigit e h
  rw [readUnsigned, readWhole_append _ (fractionText_noDigit fraction hdigit)]
  simp [readFraction_append fraction hdigit hpoint, readExponent_append e h]

/-- **A literal is read as it was written**, up to what cannot go on with it. -/
theorem read_append (l : Literal) (h : t.EndsNumber) : read (l.text ++ t) = some (l, t) := by
  obtain ⟨negative, whole, fraction, e⟩ := l
  have hrest := readUnsigned_append negative whole fraction e h
  rw [text_eq]
  simp only [List.append_assoc]
  cases negative with
  | true => exact hrest
  | false =>
    obtain ⟨d, ds, hds⟩ := List.exists_cons_of_ne_nil (Decimal.digitsOf_ne_nil whole)
    rw [hds] at hrest ⊢
    rw [← hrest]
    exact read_unsigned (ofDigit_ne d).2 _

end Literal

namespace Json

variable {t : Text}

/-! ## Texts -/

theorem hexDigit?_hexChar : ∀ n < 16, Text.hexDigit? (hexChar n) = some n := by decide

theorem hexUnit?_numeric (u : UInt16) :
    hexUnit? (hexChar (u.toNat / 0x1000)) (hexChar (u.toNat / 0x100 % 0x10))
      (hexChar (u.toNat / 0x10 % 0x10)) (hexChar (u.toNat % 0x10)) = some u := by
  have hu := u.toNat_lt
  have hdigits : ((u.toNat / 0x1000 * 16 + u.toNat / 0x100 % 0x10) * 16 + u.toNat / 0x10 % 0x10) * 16 +
      u.toNat % 0x10 = u.toNat := by omega
  simp only [hexUnit?, hexDigit?_hexChar _ (show u.toNat / 0x1000 < 16 by omega),
    hexDigit?_hexChar _ (Nat.mod_lt _ (show 0 < 16 by decide)), Option.bind_eq_bind,
    Option.bind_some, hdigits, UInt16.ofNat_toNat]

/-- What is read of a text after one more unit. -/
def unitThen (u : UInt16) (r : Option (Text × Text)) : Option (Text × Text) :=
  r.map fun (s, rest) => (u :: s, rest)

theorem readText_numeric (u : UInt16) (t : Text) :
    readText (numericEscape u ++ t) = unitThen u (readText t) := by
  show readText (0x5C :: 0x75 :: _ :: _ :: _ :: _ :: t) = _
  rw [readText, hexUnit?_numeric]
  cases readText t <;> rfl

theorem readText_plain {u : UInt16} (hq : u ≠ 0x22) (hb : u ≠ 0x5C) (hc : ¬ u < 0x20) (t : Text) :
    readText (u :: t) = unitThen u (readText t) := by
  rw [readText.eq_def]
  split
  · rename_i heq; cases heq
  · rename_i heq; exact absurd (List.cons.inj heq).1 hb
  · rename_i heq; exact absurd (List.cons.inj heq).1 hb
  · rename_i heq
    obtain ⟨rfl, rfl⟩ := List.cons.inj heq
    rw [if_neg (show ¬ u = Text.unit '"' from hq),
      if_neg (show ¬ (u < 0x20 ∨ u = Text.unit '\\') from not_or.2 ⟨hc, hb⟩)]
    cases readText t <;> rfl

theorem readText_escaped {e u : UInt16} (he : escaped? e = some u) (t : Text) :
    readText (0x5C :: e :: t) = unitThen u (readText t) := by
  rw [readText.eq_def]
  split
  · rename_i heq; cases heq
  · rename_i heq
    obtain ⟨rfl, -⟩ := List.cons.inj (List.cons.inj heq).2
    cases he
  · rename_i heq
    obtain ⟨rfl, rfl⟩ := List.cons.inj (List.cons.inj heq).2
    rw [he]
    cases readText _ <;> rfl
  · rename_i hno heq
    obtain ⟨rfl, rfl⟩ := List.cons.inj heq
    exact (hno e t rfl rfl).elim

theorem readText_quoteUnit (u : UInt16) (t : Text) :
    readText (quoteUnit u ++ t) = unitThen u (readText t) := by
  unfold quoteUnit
  -- The units with an escape of one letter come first.
  by_cases h : u = 0x22 ∨ u = 0x5C ∨ u = 0x08 ∨ u = 0x0C ∨ u = 0x0A ∨ u = 0x0D ∨ u = 0x09
  · obtain rfl | rfl | rfl | rfl | rfl | rfl | rfl := h <;> exact readText_escaped (by decide) t
  · simp only [not_or] at h
    obtain ⟨hq, hb, h8, hC, hA, hD, h9⟩ := h
    simp only [hq, hb, h8, hC, hA, hD, h9, if_false]
    split
    · exact readText_numeric u t
    · exact readText_plain hq hb ‹_› t

theorem readText_surrogate {u : UInt16} (h : 0xD800 ≤ u) (t : Text) :
    readText (u :: t) = unitThen u (readText t) := by
  have hn : 0xD800 ≤ u.toNat := UInt16.le_iff_toNat_le.1 h
  refine readText_plain ?_ ?_ ?_ t
  · rintro rfl
    exact absurd hn (by decide)
  · rintro rfl
    exact absurd hn (by decide)
  · intro hlt
    have := UInt16.lt_iff_toNat_lt.1 hlt
    simp at this
    omega

/-- **A text is read as it was written**, up to its closing quote. -/
theorem readText_quoteBody (s t : Text) : readText (quoteBody s ++ 0x22 :: t) = some (s, t) := by
  induction s using quoteBody.induct with
  | case1 => rfl
  | case2 u hu v rest hv ih =>
    have hhigh : 0xD800 ≤ u := by
      simp at hu
      exact hu.1
    have hlow : 0xD800 ≤ v := by
      simp at hv
      exact UInt16.le_trans (by decide : (0xD800 : UInt16) ≤ 0xDC00) hv.1
    rw [quoteBody, if_pos hu]
    simp only [if_pos hv]
    rw [List.cons_append, List.cons_append, readText_surrogate hhigh, readText_surrogate hlow, ih]
    rfl
  | case3 u hu v rest hv ih =>
    rw [quoteBody, if_pos hu]
    simp only [if_neg hv]
    rw [List.append_assoc, readText_numeric, ih]
    rfl
  | case4 u hu =>
    rw [quoteBody, if_pos hu]
    exact readText_numeric u _
  | case5 u rest hu hu' ih =>
    rw [quoteBody.eq_def]
    simp only [if_neg hu, if_pos hu']
    rw [List.append_assoc, readText_numeric, ih]
    rfl
  | case6 u rest hu hu' ih =>
    rw [quoteBody.eq_def]
    simp only [if_neg hu, if_neg hu']
    rw [List.append_assoc, readText_quoteUnit, ih]
    rfl

end Json

end Lifecycle
