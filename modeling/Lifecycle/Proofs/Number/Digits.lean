import Lifecycle.Number.Shortest
import Mathlib

/- Decimal digits and the numbers they spell.

   A natural number has one spelling without a leading zero (`digitsOf_ofDigits`), and
   its number of digits places it between two powers of ten. Taking the zeros off both
   ends of a spelling divides its number by a power of ten, no more. -/
namespace Lifecycle

namespace Decimal

variable {ds : List (Fin 10)} {n : Nat}

/-! ## Spellings -/

@[simp] theorem ofDigits_nil : ofDigits [] = 0 := rfl

@[simp] theorem ofDigits_concat (ds : List (Fin 10)) (d : Fin 10) :
    ofDigits (ds ++ [d]) = 10 * ofDigits ds + d := by simp [ofDigits]

theorem ofDigits_append (a b : List (Fin 10)) :
    ofDigits (a ++ b) = ofDigits a * 10 ^ b.length + ofDigits b := by
  induction b using List.reverseRecOn with
  | nil => simp
  | append_singleton b d ih =>
    rw [← List.append_assoc, ofDigits_concat, ih, ofDigits_concat, List.length_append,
      List.length_singleton, Nat.pow_succ]
    ring

@[simp] theorem ofDigits_zeros (i : Nat) : ofDigits (List.replicate i 0) = 0 := by
  induction i with
  | zero => rfl
  | succ i ih => rw [List.replicate_succ', ofDigits_concat, ih]; rfl

theorem ofDigits_append_zeros (ds : List (Fin 10)) (i : Nat) :
    ofDigits (ds ++ List.replicate i 0) = ofDigits ds * 10 ^ i := by
  rw [ofDigits_append, ofDigits_zeros, List.length_replicate, Nat.add_zero]

theorem ofDigits_zeros_append (i : Nat) (ds : List (Fin 10)) :
    ofDigits (List.replicate i 0 ++ ds) = ofDigits ds := by
  rw [ofDigits_append, ofDigits_zeros, Nat.zero_mul, Nat.zero_add]

theorem ofDigits_lt (ds : List (Fin 10)) : ofDigits ds < 10 ^ ds.length := by
  induction ds using List.reverseRecOn with
  | nil => simp
  | append_singleton ds d ih =>
    have hd := d.isLt
    rw [ofDigits_concat, List.length_append, List.length_singleton, Nat.pow_succ]
    omega

theorem ofDigits_cons (d : Fin 10) (ds : List (Fin 10)) :
    ofDigits (d :: ds) = d * 10 ^ ds.length + ofDigits ds := by
  rw [← List.singleton_append, ofDigits_append]
  simp [ofDigits]

theorem ofDigits_ge {d : Fin 10} (hd : d ≠ 0) (ds : List (Fin 10)) :
    10 ^ ds.length ≤ ofDigits (d :: ds) := by
  have hpos : 1 ≤ d.val := Nat.one_le_iff_ne_zero.2 (fun h => hd (Fin.ext h))
  rw [ofDigits_cons]
  exact Nat.le_add_right_of_le (Nat.le_mul_of_pos_left _ hpos)

/-! ## The spelling of a number -/

theorem digitsOf_small (h : n < 10) : digitsOf n = [⟨n, h⟩] := by
  rw [digitsOf, Nat.toDigits_of_lt_base h]
  interval_cases n <;> rfl

theorem digitsOf_step (h : 10 ≤ n) :
    digitsOf n = digitsOf (n / 10) ++ [⟨n % 10, Nat.mod_lt _ (by decide)⟩] := by
  have hmod : n % 10 < 10 := Nat.mod_lt _ (by decide)
  rw [digitsOf, Nat.toDigits_of_base_le (by decide) h, List.map_append, ← digitsOf]
  congr 1
  have := digitsOf_small hmod
  rwa [digitsOf, Nat.toDigits_of_lt_base hmod] at this

theorem digitsOf_ne_nil (n : Nat) : digitsOf n ≠ [] := by simp [digitsOf, Nat.toDigits_ne_nil]

theorem ofDigits_digitsOf (n : Nat) : ofDigits (digitsOf n) = n := by
  induction n using Nat.strongRecOn with
  | ind n ih =>
    by_cases h : n < 10
    · rw [digitsOf_small h]
      simp [ofDigits]
    · rw [digitsOf_step (by omega), ofDigits_concat, ih _ (by omega)]
      exact Nat.div_add_mod n 10

theorem digitsOf_head (hn : 0 < n) : ∃ d ds, digitsOf n = d :: ds ∧ d ≠ 0 := by
  induction n using Nat.strongRecOn with
  | ind n ih =>
    by_cases h : n < 10
    · exact ⟨_, _, digitsOf_small h, fun h0 => by simp [Fin.ext_iff] at h0; omega⟩
    · obtain ⟨d, ds, hds, hd⟩ := ih (n / 10) (by omega) (by omega)
      exact ⟨d, ds ++ _, by rw [digitsOf_step (by omega), hds, List.cons_append], hd⟩

theorem digitsOf_ofDigits {d : Fin 10} (hd : d ≠ 0) (ds : List (Fin 10)) :
    digitsOf (ofDigits (d :: ds)) = d :: ds := by
  induction ds using List.reverseRecOn with
  | nil =>
    rw [show ofDigits [d] = d.val by simp [ofDigits], digitsOf_small d.isLt]
  | append_singleton ds e ih =>
    have hge := ofDigits_ge hd ds
    have hpos := Nat.pow_pos (n := ds.length) (by decide : 0 < 10)
    have he := e.isLt
    rw [← List.cons_append, ofDigits_concat, digitsOf_step (by omega)]
    simp [show (10 * ofDigits (d :: ds) + e.val) / 10 = ofDigits (d :: ds) by omega, ih,
      Nat.mod_eq_of_lt he]

theorem digitCount_eq (n : Nat) : digitCount n = (digitsOf n).length := by
  simp [digitCount, digitsOf]

theorem digitCount_pos (n : Nat) : 0 < digitCount n := by
  rw [digitCount_eq]
  exact List.length_pos_iff.2 (digitsOf_ne_nil n)

theorem lt_pow_digitCount (n : Nat) : n < 10 ^ digitCount n := by
  have := ofDigits_lt (digitsOf n)
  rwa [ofDigits_digitsOf, ← digitCount_eq] at this

theorem pow_digitCount_le (hn : 0 < n) : 10 ^ (digitCount n - 1) ≤ n := by
  obtain ⟨d, ds, hds, hd⟩ := digitsOf_head hn
  have hge := ofDigits_ge hd ds
  rwa [← hds, ofDigits_digitsOf, show ds.length = digitCount n - 1 by
    rw [digitCount_eq, hds]; rfl] at hge

/-! ## Zeros at the ends -/

theorem takeWhile_zeros (ds : List (Fin 10)) :
    ∃ i, ds.takeWhile (· == 0) = List.replicate i 0 := by
  refine ⟨_, List.eq_replicate_of_mem fun d hd => ?_⟩
  simpa using List.mem_takeWhile_imp hd

theorem dropWhile_zeros (ds : List (Fin 10)) :
    ∃ j, ds.dropWhile (· == 0) = significant ds ++ List.replicate j 0 := by
  obtain ⟨j, hj⟩ := takeWhile_zeros (ds.dropWhile (· == 0)).reverse
  have hback := congrArg List.reverse
    (List.takeWhile_append_dropWhile (p := (· == 0)) (l := (ds.dropWhile (· == 0)).reverse))
  rw [List.reverse_append, List.reverse_reverse, hj, List.reverse_replicate] at hback
  exact ⟨j, hback.symm⟩

theorem significant_between (ds : List (Fin 10)) :
    ∃ i j, ds = List.replicate i 0 ++ significant ds ++ List.replicate j 0 := by
  obtain ⟨i, hi⟩ := takeWhile_zeros ds
  obtain ⟨j, hj⟩ := dropWhile_zeros ds
  refine ⟨i, j, ?_⟩
  calc ds = ds.takeWhile (· == 0) ++ ds.dropWhile (· == 0) := List.takeWhile_append_dropWhile.symm
    _ = _ := by rw [hi, hj, List.append_assoc]

theorem ofDigits_significant (ds : List (Fin 10)) :
    ∃ j, ofDigits ds = ofDigits (significant ds) * 10 ^ j := by
  obtain ⟨i, j, h⟩ := significant_between ds
  refine ⟨j, ?_⟩
  conv_lhs => rw [h]
  rw [List.append_assoc, ofDigits_zeros_append, ofDigits_append_zeros]

theorem significant_head {d : Fin 10} {rest : List (Fin 10)} (h : significant ds = d :: rest) :
    d ≠ 0 := by
  rintro rfl
  obtain ⟨j, hj⟩ := dropWhile_zeros ds
  have := List.head_dropWhile_not (p := (· == 0)) (l := ds) (by rw [hj, h]; simp)
  simp [hj, h] at this

theorem digitsOf_significant (hn : 0 < n) :
    ∃ j, digitsOf n = significant (digitsOf n) ++ List.replicate j 0 := by
  obtain ⟨d, ds, hds, hd⟩ := digitsOf_head hn
  obtain ⟨j, hj⟩ := dropWhile_zeros (digitsOf n)
  refine ⟨j, hj ▸ ?_⟩
  simp [hds, hd]

end Decimal

/-! ## Digits as texts -/

open Double (digitText)

theorem digitText_append (a b : List (Fin 10)) : digitText (a ++ b) = digitText a ++ digitText b :=
  List.map_append

theorem digitText_zeros (i : Nat) :
    digitText (List.replicate i 0) = List.replicate i (Text.unit '0') := List.map_replicate

theorem ofNat_eq_digitText (n : Nat) : Text.ofNat n = digitText (Decimal.digitsOf n) := by
  have single : ∀ r, r < 10 → Text.ofChar r.digitChar = [Text.ofDigit (Fin.ofNat 10 r)] := by decide
  induction n using Nat.strongRecOn with
  | ind n ih =>
    by_cases h : n < 10
    · rw [Text.ofNat, Nat.toDigits_of_lt_base h, Decimal.digitsOf_small h, List.flatMap_singleton,
        single n h]
      simp [digitText, Fin.ofNat, Nat.mod_eq_of_lt h]
    · have hr : n % 10 < 10 := Nat.mod_lt _ (by decide)
      rw [Text.ofNat, Nat.toDigits_of_base_le (by decide) (by omega), Decimal.digitsOf_step (by omega),
        List.flatMap_append, ← Text.ofNat, ih _ (by omega), digitText_append, List.flatMap_singleton,
        single _ hr]
      simp [digitText, Fin.ofNat]

end Lifecycle
