import Lifecycle.Proofs.Number.Layout
import Lifecycle.Proofs.Number.Nearest

/- Doubles are read back from their texts.

   The literal that a finite double is written as has the double as its nearest one, but
   for the sign of a zero (`literal_toDouble`). It is safe unless the double is a whole
   number beyond 2^53 - 1 (`literal_isSafe`), and no safe literal has such a double as its
   nearest one (`isLarge_of_isSafe`). So a double that was read from a safe literal is
   written as a safe literal again. -/
namespace Lifecycle

namespace Decimal

variable {ds : List (Fin 10)}

/-! ## Significant digits -/

theorem significant_last {d : Fin 10} {rest : List (Fin 10)}
    (h : (significant ds).reverse = d :: rest) : d ≠ 0 := by
  rintro rfl
  rw [significant, List.reverse_reverse] at h
  have := List.head_dropWhile_not (p := (· == 0)) (l := (ds.dropWhile (· == 0)).reverse) (by simp [h])
  simp [h] at this

theorem significant_padded (i j : Nat) (hne : significant ds ≠ []) :
    significant (List.replicate i 0 ++ significant ds ++ List.replicate j 0) = significant ds := by
  have hzeros (n : Nat) : ∀ d ∈ List.replicate n (0 : Fin 10), (d == 0) = true := by
    intro d hd
    rw [(List.mem_replicate.1 hd).2]
    rfl
  obtain ⟨d, rest, hfirst⟩ := List.exists_cons_of_ne_nil hne
  obtain ⟨e, rest', hlast⟩ := List.exists_cons_of_ne_nil (List.reverse_ne_nil_iff.2 hne)
  have hstop {d : Fin 10} (hd : d ≠ 0) (rest : List (Fin 10)) :
      (d :: rest).dropWhile (· == 0) = d :: rest :=
    List.dropWhile_cons_of_neg (by simpa using hd)
  have hleft : (List.replicate i 0 ++ significant ds ++ List.replicate j 0).dropWhile (· == 0) =
      significant ds ++ List.replicate j 0 := by
    rw [List.append_assoc, List.dropWhile_append_of_pos (hzeros i), hfirst, List.cons_append,
      hstop (significant_head hfirst)]
  conv_lhs => rw [significant]
  rw [hleft, List.reverse_append, List.reverse_replicate, List.dropWhile_append_of_pos (hzeros j), hlast,
    hstop (significant_last hlast), ← hlast, List.reverse_reverse]

end Decimal

namespace Double

open Decimal

variable {negative : Bool} {rank n : Nat} {x : Double}

/-! ## Reading what was written -/

/-- The double that is read for the text of a finite one: zero has no sign there. -/
def asWritten (x : Double) : Double := if x.isNegativeZero then .zero else x

theorem isFinite_asWritten (x : Double) : x.asWritten.isFinite = x.isFinite := by
  unfold asWritten
  split
  · cases x with
    | finite negative rank => rfl
    | _ => contradiction
  · rfl

theorem toText_asWritten (x : Double) : x.asWritten.toText = x.toText := by
  unfold asWritten
  split
  · rename_i h
    cases x with
    | finite negative rank =>
      cases negative with
      | false => cases h
      | true =>
        have h0 : rank.val = 0 := beq_iff_eq.1 h
        rw [zero, toText, h0]
        rfl
    | _ => cases h
  · rfl

theorem layoutLiteral_negative (ds : List (Fin 10)) (position : Int) :
    (layoutLiteral negative ds position).negative = negative := by
  unfold layoutLiteral
  simp only
  split
  · rfl
  split
  · rfl
  split <;> rfl

theorem literal_negative {rank : Fin finiteRanks} (hk : 0 < rank.val) :
    (Double.finite negative rank).literal.negative = negative := by
  rw [literal, if_neg hk.ne']
  exact layoutLiteral_negative _ _

theorem literal_magnitude {rank : Fin finiteRanks} (hk : 0 < rank.val) :
    (Double.finite negative rank).literal.decimal.magnitude = decimal rank := by
  have hvalue := literal_value (x := .finite negative rank) rfl
  have hsign : (Double.finite negative rank).literal.decimal.negative = negative := literal_negative hk
  rw [written, if_neg hk.ne', Literal.value, Decimal.value, hsign] at hvalue
  -- both numbers have the same sign
  cases negative <;> simpa [signOf] using hvalue

/-- **The literal that a double is written as has it as its nearest double.** -/
theorem literal_toDouble (h : x.isFinite = true) : x.literal.toDouble = x.asWritten := by
  cases x with
  | nan => cases h
  | infinite negative => cases h
  | finite negative rank =>
    rw [asWritten, isNegativeZero.eq_def]
    by_cases h0 : rank.val = 0
    · have hzero : rank = ⟨0, by decide⟩ := Fin.ext h0
      rw [literal, if_pos h0]
      cases negative <;> simp [hzero, zero, Literal.toDouble, Literal.decimal] <;> rfl
    · have hk := Nat.pos_of_ne_zero h0
      have hsign : (Double.finite negative rank).literal.decimal.negative = negative := literal_negative hk
      rw [Literal.toDouble, toDouble_of_rounds hk (literal_magnitude hk ▸ decimal_rounds hk), hsign]
      cases negative <;> simp [h0]

/-! ## Whole numbers beyond the safe ones -/

/-- Whether a double is a whole number beyond 2^53 - 1. -/
def isLarge (x : Double) : Bool :=
  match x.toInt? with
  | some n => Literal.safeLimit < n.natAbs
  | none => false

theorem toInt?_of_units {rank : Fin finiteRanks} (h : units rank = n * stepsPerOne) :
    (Double.finite negative rank).toInt? = some (if negative then -(n : Int) else n) := by
  have hpos : (stepsPerOne : Int) ≠ 0 := by
    have := stepsPerOne_pos
    omega
  rw [toInt?, steps?, h]
  push_cast
  cases negative
  · simp only [Bool.false_eq_true, if_false, Int.mul_emod_left, if_true, Int.mul_ediv_cancel _ hpos]
  · simp only [if_true, ← Int.neg_mul, Int.mul_emod_left, Int.mul_ediv_cancel _ hpos]

theorem natAbs_signed (negative : Bool) (n : Nat) : (if negative then -(n : Int) else n).natAbs = n := by
  cases negative <;> simp

theorem isLarge_iff {rank : Fin finiteRanks} (h : units rank = n * stepsPerOne) :
    (Double.finite negative rank).isLarge = true ↔ 2 ^ 53 ≤ n := by
  have hlimit : Literal.safeLimit + 1 = 2 ^ 53 := by decide
  rw [isLarge, toInt?_of_units h]
  simp only [decide_eq_true_eq, natAbs_signed]
  omega

theorem not_isLarge_of_zero {rank : Fin finiteRanks} (h : rank.val = 0) :
    (Double.finite negative rank).isLarge = false := by
  rw [← Bool.not_eq_true, isLarge_iff (n := 0) (by rw [h, units_zero, Nat.zero_mul])]
  decide

theorem isLarge_asWritten (x : Double) : x.asWritten.isLarge = x.isLarge := by
  unfold asWritten
  split
  · rename_i h
    cases x with
    | finite negative rank =>
      cases negative with
      | false => cases h
      | true =>
        rw [not_isLarge_of_zero (beq_iff_eq.1 h)]
        have hzero : (0 : Nat) < finiteRanks := by decide
        exact (not_isLarge_of_zero rfl : (Double.finite false ⟨0, hzero⟩).isLarge = false)
    | _ => cases h
  · rfl

theorem units_ge_of_rounds {q : ℚ} (h : Rounds rank q) (hq : (2 ^ 53 * stepsPerOne : Nat) ≤ q) :
    2 ^ 53 * stepsPerOne ≤ units rank := by
  by_contra hlt
  have hspace := spacing_le_one (Nat.lt_of_not_ge hlt)
  have hnext : units (rank + 1) ≤ 2 ^ 53 * stepsPerOne := by
    rw [units_succ]
    exact (units_add_spacing_le rank).trans (Nat.mul_le_mul_left _ hspace)
  have hhigh := h.1.2
  have hbelow : (upperEnd rank : ℚ) < 2 * (2 ^ 53 * stepsPerOne : Nat) := by
    have : upperEnd rank < 2 * (2 ^ 53 * stepsPerOne) := by
      rw [upperEnd]
      omega
    exact_mod_cast this
  linarith

theorem whole_of_units_ge (h : 2 ^ 53 * stepsPerOne ≤ units rank) :
    ∃ n, 2 ^ 53 ≤ n ∧ units rank = n * stepsPerOne := by
  have hpos := stepsPerOne_pos
  obtain ⟨e, -, hone⟩ := stepsPerOne_pow
  obtain hb | ⟨shift, m, hlow, hhigh, rfl, -⟩ := rank_cases rank
  · rw [units_small (by omega)] at h
    rw [binade_eq] at hb
    omega
  · have hunits : units (shift * binade + m) = m * 2 ^ shift := units_scaled (by omega) (.inr hlow)
    have hlt : 2 ^ e < 2 ^ shift := by
      have : 2 ^ 53 * 2 ^ e < 2 ^ 53 * 2 ^ shift := calc
        2 ^ 53 * 2 ^ e ≤ m * 2 ^ shift := by rw [← hone, ← hunits]; exact h
        _ < 2 ^ 53 * 2 ^ shift :=
          Nat.mul_lt_mul_of_pos_right (by rw [binade_eq] at hhigh; omega) (Nat.two_pow_pos _)
      exact Nat.lt_of_mul_lt_mul_left this
    obtain ⟨i, rfl⟩ := Nat.exists_eq_add_of_le ((Nat.pow_lt_pow_iff_right (by decide)).1 hlt).le
    have hwhole : units ((e + i) * binade + m) = m * 2 ^ i * stepsPerOne := by
      rw [hunits, hone, Nat.pow_add]
      ring
    refine ⟨m * 2 ^ i, ?_, hwhole⟩
    rw [hwhole] at h
    exact Nat.le_of_mul_le_mul_right h hpos

/-! ## Safe literals -/

theorem layoutLiteral_digits (negative : Bool) {d : Fin 10} (hd : d ≠ 0) (ds : List (Fin 10)) (position : Int) :
    ∃ i j, (layoutLiteral negative (d :: ds) position).digits =
      List.replicate i 0 ++ (d :: ds) ++ List.replicate j 0 := by
  unfold layoutLiteral
  simp only
  split
  · refine ⟨0, (position - (d :: ds).length).toNat, ?_⟩
    rw [Literal.digits, List.cons_append, digitsOf_ofDigits hd]
    simp
  split
  · rename_i h h'
    obtain ⟨i, hi⟩ := Int.eq_succ_of_zero_lt h'.1
    refine ⟨0, 0, ?_⟩
    rw [Literal.digits, show position.toNat = i + 1 by omega, List.take_succ_cons, digitsOf_ofDigits hd]
    simp
  split
  · refine ⟨1 + (-position).toNat, 0, ?_⟩
    rw [Literal.digits, show digitsOf 0 = List.replicate 1 0 from rfl, List.replicate_add]
    simp
  · refine ⟨0, 0, ?_⟩
    rw [Literal.digits, List.take_succ_cons, List.take_zero, digitsOf_ofDigits hd]
    simp

theorem significant_literal (hk : 0 < rank) : significant (layoutLiteral negative (shortestDigits rank).1
    (shortestDigits rank).2).digits = (shortestDigits rank).1 := by
  obtain ⟨d, ds, hds, hd⟩ := shortestDigits_cons hk
  obtain ⟨i, j, hdigits⟩ := layoutLiteral_digits negative hd ds (shortestDigits rank).2
  have hsignificant : (shortestDigits rank).1 = significant (digitsOf (shortest rank).1) := by
    rw [shortestDigits, if_neg (by omega)]
  rw [hds, hdigits, ← hds, hsignificant]
  exact significant_padded i j (by rw [← hsignificant, hds]; exact List.cons_ne_nil d ds)

/-- A literal of digits alone is that of a double beyond 2^53 - 1 if it is beyond itself. -/
theorem isLarge_of_integer {rank : Fin finiteRanks} (hk : 0 < rank.val)
    (hi : (Double.finite negative rank).literal.isInteger = true)
    (hl : Literal.safeLimit < (Double.finite negative rank).literal.whole) :
    (Double.finite negative rank).isLarge = true := by
  have hlimit : Literal.safeLimit + 1 = 2 ^ 53 := by decide
  generalize hw : (Double.finite negative rank).literal.whole = whole at hl
  have hdecimal : decimal rank = whole := by
    rw [← literal_magnitude hk, Literal.decimal_of_isInteger hi, hw, Decimal.magnitude, zpow_zero, mul_one]
  have hrounds := decimal_rounds hk
  rw [hdecimal] at hrounds
  have hunits := units_ge_of_rounds hrounds (by
    have := Nat.mul_le_mul_right stepsPerOne (show 2 ^ 53 ≤ whole by omega)
    exact_mod_cast this)
  obtain ⟨n, hn, hwhole⟩ := whole_of_units_ge hunits
  exact (isLarge_iff hwhole).2 hn

/-- **A double is written as a safe literal**, unless it is a whole number beyond 2^53 - 1. -/
theorem literal_isSafe (h : x.isFinite = true) (hx : x.isLarge = false) : x.literal.isSafe = true := by
  cases x with
  | nan => cases h
  | infinite negative => cases h
  | finite negative rank =>
    have hread := literal_toDouble h
    by_cases h0 : rank.val = 0
    · rw [literal, if_pos h0]
      rfl
    have hk := Nat.pos_of_ne_zero h0
    have hself : (Double.finite negative rank).asWritten = .finite negative rank := by
      rw [asWritten, isNegativeZero.eq_def]
      cases negative <;> simp [h0]
    rw [Literal.isSafe]
    split
    · rename_i hi
      by_contra hl
      rw [isLarge_of_integer hk hi (by simpa using hl)] at hx
      cases hx
    · rw [hread, hself]
      simp only [Bool.and_eq_true, Bool.not_eq_true', beq_iff_eq]
      constructor
      · exact hx
      · rw [literal, if_neg h0]
        exact significant_literal hk

theorem isLarge_of_isSafe {l : Literal} (h : l.isSafe = true) : l.toDouble.isLarge = false := by
  rw [Literal.isSafe] at h
  split at h
  · rename_i hi
    have hwhole : l.whole < 2 ^ 53 := Nat.lt_of_le_of_lt (of_decide_eq_true h) (by decide)
    obtain ⟨rank, hrank, hunits⟩ := toDouble_nat hwhole l.negative
    rw [Literal.toDouble, Literal.decimal_of_isInteger hi, hrank, ← Bool.not_eq_true, isLarge_iff hunits]
    omega
  · split at h
    · rw [Bool.and_eq_true, Bool.not_eq_true'] at h
      exact h.1
    · cases h

end Double

end Lifecycle
