import Lifecycle.Proofs.Number.Literal

/- The literal that a double is written as.

   Each way of writing the digits of a double is that of one literal, whose text is the
   text of the double (`literal_text`) and whose value is the decimal the double is
   written as (`literal_value`). -/
namespace Lifecycle.Double

open Decimal

local instance neZero_ten : NeZero 10 := ⟨Nat.succ_ne_zero 9⟩

/-- A power of ten, as the exponent that the layout writes. -/
def exponentOf (n : Int) : Exponent :=
  ⟨false, some (n < 0), (digitsOf n.natAbs).headD 0, (digitsOf n.natAbs).tail⟩

/-- The literal of digits with the point at the given position. -/
def layoutLiteral (negative : Bool) (ds : List (Fin 10)) (position : Int) : Literal :=
  let count : Int := ds.length
  if count ≤ position ∧ position ≤ 21 then
    ⟨negative, ofDigits (ds ++ List.replicate (position - count).toNat 0), [], none⟩
  else if 0 < position ∧ position ≤ 21 then
    ⟨negative, ofDigits (ds.take position.toNat), ds.drop position.toNat, none⟩
  else if -6 < position ∧ position ≤ 0 then
    ⟨negative, 0, List.replicate (-position).toNat 0 ++ ds, none⟩
  else
    ⟨negative, ofDigits (ds.take 1), ds.drop 1, some (exponentOf (position - 1))⟩

def literal : Double → Literal
  | .finite negative rank =>
    if rank.val = 0 then ⟨false, 0, [], none⟩
    else layoutLiteral negative (shortestDigits rank.val).1 (shortestDigits rank.val).2
  | _ => ⟨false, 0, [], none⟩

variable {negative : Bool} {d : Fin 10} {ds : List (Fin 10)}

/-! ## Text -/

theorem ofNat_ofDigits (hd : d ≠ 0) (ds : List (Fin 10)) :
    Text.ofNat (ofDigits (d :: ds)) = digitText (d :: ds) := by
  rw [ofNat_eq_digitText, digitsOf_ofDigits hd]

theorem ofInt_eq (n : Int) : Text.ofInt n =
    (if n < 0 then [Text.unit '-'] else []) ++ digitText (digitsOf n.natAbs) := by
  rw [Text.ofInt]
  split <;> simp [ofNat_eq_digitText]

theorem head_tail (n : Nat) : (digitsOf n).headD 0 :: (digitsOf n).tail = digitsOf n := by
  cases h : digitsOf n with
  | nil => exact absurd h (digitsOf_ne_nil n)
  | cons d ds => rfl

theorem exponent_text (n : Int) :
    (exponentOf n).text = "e" ++ (if 0 ≤ n then ("+" : Text) else []) ++ Text.ofInt n := by
  have hplus : Text.ofString "e" = [Text.unit 'e'] ∧ Text.ofString "+" = [Text.unit '+'] := by decide
  rw [Exponent.text, exponentOf, head_tail, ofInt_eq, hplus.1, hplus.2]
  by_cases h : n < 0
  · simp [h]
  · simp [h, Int.not_lt.1 h]

theorem layoutLiteral_text (hd : d ≠ 0) (ds : List (Fin 10)) (position : Int) :
    (layoutLiteral negative (d :: ds) position).text =
      (if negative then [Text.unit '-'] else []) ++ layout (d :: ds) position := by
  unfold layoutLiteral layout
  simp only [List.isEmpty_cons, Bool.false_eq_true, if_false]
  split
  · rename_i h
    simp only [Literal.text, List.cons_append, ofNat_ofDigits hd, List.isEmpty_nil, if_true,
      List.append_nil]
    rw [← List.cons_append, digitText_append, digitText_zeros]
  split
  · rename_i h h'
    obtain ⟨i, hi⟩ := Int.eq_succ_of_zero_lt h'.1
    have hlt : i + 1 < (d :: ds).length := by
      simp only [List.length_cons] at h ⊢
      omega
    have hdrop : ((d :: ds).drop (i + 1)).isEmpty = false := by
      rw [List.isEmpty_eq_false_iff]
      exact List.drop_eq_nil_iff.not.2 (by omega)
    rw [show position.toNat = i + 1 by omega, Literal.text]
    simp only [hdrop, List.take_succ_cons, ofNat_ofDigits hd]
    simp
  split
  · rename_i h h' h''
    simp [Literal.text, ofNat_eq_digitText, digitText_append, digitText_zeros]
    rfl
  · simp only [Literal.text, exponent_text, List.take_succ_cons, List.take_zero, ofNat_ofDigits hd]
    cases ds <;> simp [digitText]

theorem literal_text {x : Double} (h : x.isFinite = true) : x.literal.text = x.toText := by
  cases x with
  | nan => cases h
  | infinite negative => cases h
  | finite negative rank =>
    rw [literal, toText]
    split
    · rename_i h0
      simp only [h0, shortestDigits]
      cases negative <;> decide
    · rename_i h0
      obtain ⟨d, ds, hds, hd⟩ := shortestDigits_cons (Nat.pos_of_ne_zero h0)
      rw [hds, layoutLiteral_text hd]
      cases negative <;> simp [h0, hds]

/-! ## Value -/

theorem literal_value_parts (negative : Bool) (whole : Nat) (fraction : List (Fin 10))
    (e : Option Exponent) : Literal.value ⟨negative, whole, fraction, e⟩ = signOf negative *
      (ofDigits (digitsOf whole ++ fraction) * 10 ^ ((e.elim 0 Exponent.value) - fraction.length)) := by
  cases e <;> rfl

theorem exponentOf_value (n : Int) : (exponentOf n).value = n := by
  rw [Exponent.value, exponentOf, head_tail, ofDigits_digitsOf]
  simp only [Option.some.injEq, decide_eq_true_eq]
  split <;> omega

theorem layoutLiteral_value (negative : Bool) (d : Fin 10) (ds : List (Fin 10)) (position : Int) :
    (layoutLiteral negative (d :: ds) position).value =
      signOf negative * (ofDigits (d :: ds) * 10 ^ (position - (d :: ds).length)) := by
  unfold layoutLiteral
  simp only
  split
  · rename_i h
    obtain ⟨i, hi⟩ := Int.eq_ofNat_of_zero_le (show 0 ≤ position - (d :: ds).length by omega)
    rw [literal_value_parts, hi, Int.toNat_natCast, List.append_nil, ofDigits_digitsOf,
      ofDigits_append_zeros]
    simp [zpow_natCast]
  split
  · rename_i h h'
    obtain ⟨i, hi⟩ := Int.eq_succ_of_zero_lt h'.1
    have hlength : position.toNat + ((d :: ds).drop position.toNat).length = (d :: ds).length := by
      rw [List.length_drop]
      omega
    rw [literal_value_parts, ofDigits_append, ofDigits_digitsOf, ← ofDigits_append,
      List.take_append_drop]
    rw [show position - (d :: ds).length = 0 - ((d :: ds).drop position.toNat).length by omega]
    rfl
  split
  · rename_i h h' h''
    obtain ⟨i, hi⟩ := Int.eq_ofNat_of_zero_le (show 0 ≤ -position by omega)
    rw [literal_value_parts, show digitsOf 0 = List.replicate 1 0 from rfl, ofDigits_zeros_append,
      ofDigits_zeros_append, List.length_append, List.length_replicate, hi, Int.toNat_natCast]
    rw [show position - (d :: ds).length = 0 - ((i + (d :: ds).length : Nat) : Int) by omega]
    rfl
  · rw [literal_value_parts, ofDigits_append, ofDigits_digitsOf, ← ofDigits_append,
      List.take_append_drop]
    rw [Option.elim_some, exponentOf_value, List.length_drop]
    simp only [List.length_cons, Nat.add_sub_cancel]
    rw [show position - ((ds.length + 1 : Nat) : Int) = position - 1 - ds.length by omega]

theorem literal_value {x : Double} (h : x.isFinite = true) : x.literal.value = x.written := by
  cases x with
  | nan => cases h
  | infinite negative => cases h
  | finite negative rank =>
    rw [literal, written]
    split
    · simp [literal_value_parts, ofDigits_digitsOf]
    · rename_i h0
      have hk := Nat.pos_of_ne_zero h0
      obtain ⟨d, ds, hds, -⟩ := shortestDigits_cons hk
      rw [decimal_of_digits hk, hds]
      exact layoutLiteral_value negative d ds _

end Lifecycle.Double
