import Lifecycle.Proofs.Number.Digits
import Lifecycle.Proofs.Number.Grid

/- The decimal that a double is written as.

   On the grid of seventeen digits the multiples lie closer than the ends of the
   interval that rounds to a magnitude, as 2^53 is below 10^16; so the search through
   the grids succeeds, and what it finds lies in the interval (`decimal_inside`). For
   a whole number below 2^53 it is that number (`decimal_nat`). -/
namespace Lifecycle.Double

variable {rank c : Nat} {place position : Int}

/-! ## The ends of the interval -/

theorem lowerEnd_eq (hk : 0 < rank) : lowerEnd rank + spacing (rank - 1) = halves rank := by
  have h := units_succ (rank - 1)
  rw [Nat.sub_add_cancel hk] at h
  rw [lowerEnd, halves]
  omega

theorem upperEnd_eq (rank : Nat) : upperEnd rank = halves rank + spacing rank := by
  rw [upperEnd, halves, units_succ]
  omega

theorem spacing_mono {j k : Nat} (h : j ≤ k) : spacing j ≤ spacing k :=
  Nat.pow_le_pow_right (by decide) (Nat.sub_le_sub_right (Nat.div_le_div_right h) 1)

theorem units_add_spacing_le (k : Nat) : units k + spacing k ≤ 2 ^ 53 * spacing k := by
  obtain hb | ⟨shift, m, hlow, hhigh, rfl, hs⟩ := rank_cases k
  · rw [units_small (by omega)]
    rw [binade_eq] at hb
    have := spacing_pos k
    omega
  · rw [hs, units_scaled (by omega) (.inr hlow)]
    calc m * 2 ^ shift + 2 ^ shift = (m + 1) * 2 ^ shift := by ring
      _ ≤ 2 ^ 53 * 2 ^ shift := Nat.mul_le_mul_right _ (by rw [binade_eq] at hhigh; omega)

theorem units_le (hk : 0 < rank) : units rank ≤ 2 ^ 53 * spacing (rank - 1) := by
  have h := units_succ (rank - 1)
  rw [Nat.sub_add_cancel hk] at h
  rw [h]
  exact units_add_spacing_le (rank - 1)

/-! ## Neighbours on one grid -/

/-- Whether a multiple of a power of ten lies between the ends of the interval. -/
def Inside (rank : Nat) (place : Int) (c : Nat) : Prop :=
  lowerEnd rank * 10 ^ (-place).toNat ≤ c * (halvesPerOne * 10 ^ place.toNat) ∧
    c * (halvesPerOne * 10 ^ place.toNat) ≤ upperEnd rank * 10 ^ (-place).toNat

theorem halvesPerOne_pos : 0 < halvesPerOne := Nat.mul_pos (by decide) stepsPerOne_pos

section

variable {even : Prop} [Decidable even] {low x high : Nat}

theorem between_of_true (h : (if even then decide (low ≤ x) && decide (x ≤ high)
    else decide (low < x) && decide (x < high)) = true) : low ≤ x ∧ x ≤ high := by
  split at h <;> simp only [Bool.and_eq_true, decide_eq_true_eq] at h <;> omega

theorem strictly_between_of_true (h : (if even then decide (low ≤ x) && decide (x ≤ high)
    else decide (low < x) && decide (x < high)) = true) (he : ¬ even) : low < x ∧ x < high := by
  rw [if_neg he] at h
  simpa using h

theorem beyond_of_false (h : (if even then decide (low ≤ x) && decide (x ≤ high)
    else decide (low < x) && decide (x < high)) = false) : x ≤ low ∨ high ≤ x := by
  split at h <;> simp only [Bool.and_eq_false_iff, decide_eq_false_iff_not] at h <;> omega

end

theorem neighbour?_test (h : neighbour? rank place = some c) :
    (if rank % 2 = 0 then
      decide (lowerEnd rank * 10 ^ (-place).toNat ≤ c * (halvesPerOne * 10 ^ place.toNat)) &&
        decide (c * (halvesPerOne * 10 ^ place.toNat) ≤ upperEnd rank * 10 ^ (-place).toNat)
    else
      decide (lowerEnd rank * 10 ^ (-place).toNat < c * (halvesPerOne * 10 ^ place.toNat)) &&
        decide (c * (halvesPerOne * 10 ^ place.toNat) < upperEnd rank * 10 ^ (-place).toNat)) =
      true := by
  unfold neighbour? at h
  simp only at h
  split at h <;> rename_i hlow hhigh
  · split at h <;> cases h
    · exact hlow
    · exact hhigh
  · cases h
    exact hlow
  · cases h
    exact hhigh
  · cases h

theorem neighbour?_inside (h : neighbour? rank place = some c) : Inside rank place c :=
  between_of_true (neighbour?_test h)

/-- Without a neighbour, the two multiples around a magnitude are beyond the ends. -/
theorem neighbour?_none (h : neighbour? rank place = none) {bound scale low : Nat}
    (hbound : bound = 10 ^ (-place).toNat) (hscale : scale = halvesPerOne * 10 ^ place.toNat)
    (hlow : low = halves rank * bound / scale) :
    (low * scale ≤ lowerEnd rank * bound ∨ upperEnd rank * bound ≤ low * scale) ∧
      ((low + 1) * scale ≤ lowerEnd rank * bound ∨ upperEnd rank * bound ≤ (low + 1) * scale) := by
  rw [hlow, hscale, hbound]
  unfold neighbour? at h
  simp only at h
  split at h
  · split at h <;> cases h
  · cases h
  · cases h
  · rename_i hlow hhigh
    exact ⟨beyond_of_false hlow, beyond_of_false hhigh⟩

theorem neighbour?_of_fine (hk : 0 < rank)
    (hfine : halvesPerOne * 10 ^ place.toNat < 2 * (spacing (rank - 1) * 10 ^ (-place).toNat)) :
    (neighbour? rank place).isSome := by
  by_contra hnone
  have hbeyond := neighbour?_none (Option.not_isSome_iff_eq_none.1 hnone) rfl rfl rfl
  have hlower := congrArg (· * 10 ^ (-place).toNat) (lowerEnd_eq hk)
  have hupper := congrArg (· * 10 ^ (-place).toNat) (upperEnd_eq rank)
  have hmono := Nat.mul_le_mul_right (10 ^ (-place).toNat) (spacing_mono (Nat.sub_le rank 1))
  simp only [Nat.add_mul] at hlower hupper
  have hscale : 0 < halvesPerOne * 10 ^ place.toNat :=
    Nat.mul_pos halvesPerOne_pos (Nat.pow_pos (by decide))
  generalize halvesPerOne * 10 ^ place.toNat = scale at *
  generalize 10 ^ (-place).toNat = bound at *
  have hdiv := Nat.div_add_mod (halves rank * bound) scale
  have hmod := Nat.mod_lt (halves rank * bound) hscale
  rw [Nat.mul_comm scale] at hdiv
  generalize halves rank * bound / scale = low at *
  have hnext : (low + 1) * scale = low * scale + scale := by ring
  -- The nearer of the two neighbours is at most half a grid step away.
  omega

theorem neighbour?_of_whole {n : Nat} (hk : 0 < rank) (hn : units rank = n * stepsPerOne) :
    (neighbour? rank 0).isSome := by
  by_contra hnone
  have hhalves : halves rank = n * halvesPerOne := by rw [halves, halvesPerOne, hn]; ring
  have hbeyond := (neighbour?_none (Option.not_isSome_iff_eq_none.1 hnone) rfl rfl rfl).1
  simp only [Int.neg_zero, Int.toNat_zero, Nat.pow_zero, Nat.mul_one, hhalves,
    Nat.mul_div_cancel _ halvesPerOne_pos] at hbeyond
  have hlower := lowerEnd_eq hk
  have hupper := upperEnd_eq rank
  have := spacing_pos (rank - 1)
  have := spacing_pos rank
  omega

/-! ## Rational numbers -/

theorem zpow_mul_pow (place : Int) : (10 : ℚ) ^ place * 10 ^ (-place).toNat = 10 ^ place.toNat := by
  rcases Int.le_total 0 place with h | h <;> obtain ⟨n, hn⟩ := Int.eq_ofNat_of_zero_le
    (show 0 ≤ if 0 ≤ place then place else -place by split <;> omega)
  · obtain rfl : place = n := by omega
    simp
  · obtain rfl : place = -(n : Int) := by split at hn <;> omega
    simp

theorem cast_scaled (c s : Nat) (place : Int) : ((c * (s * 10 ^ place.toNat) : Nat) : ℚ) =
    c * 10 ^ place * s * (10 ^ (-place).toNat : Nat) := by
  push_cast
  rw [← zpow_mul_pow place]
  ring

theorem scaled_le_iff {a s : Nat} : a * 10 ^ (-place).toNat ≤ c * (s * 10 ^ place.toNat) ↔
    (a : ℚ) ≤ c * 10 ^ place * s := by
  rw [← Nat.cast_le (α := ℚ), cast_scaled, Nat.cast_mul, mul_le_mul_iff_left₀ (by positivity)]

theorem le_scaled_iff {a s : Nat} : c * (s * 10 ^ place.toNat) ≤ a * 10 ^ (-place).toNat ↔
    (c : ℚ) * 10 ^ place * s ≤ a := by
  rw [← Nat.cast_le (α := ℚ), cast_scaled, Nat.cast_mul, mul_le_mul_iff_left₀ (by positivity)]

theorem inside_iff : Inside rank place c ↔
    (lowerEnd rank : ℚ) ≤ c * 10 ^ place * halvesPerOne ∧
      (c : ℚ) * 10 ^ place * halvesPerOne ≤ upperEnd rank :=
  and_congr scaled_le_iff le_scaled_iff

/-! ## The search -/

theorem pointPosition_spec (hk : 0 < rank) :
    (10 : ℚ) ^ (pointPosition rank - 1) * stepsPerOne ≤ units rank ∧
      units rank < (10 : ℚ) ^ pointPosition rank * stepsPerOne := by
  obtain ⟨a, ha⟩ : ∃ a, a = 330 := ⟨_, rfl⟩
  have hposition : pointPosition rank =
      (Decimal.digitCount (halves rank * 10 ^ a / halvesPerOne) : Int) - a := by
    unfold pointPosition
    rw [← ha, Nat.pow_eq, show (a : Int) = 330 by omega]
  have hsmall : halvesPerOne ≤ 2 * 10 ^ a := by
    subst ha
    decide +kernel
  have hunits := units_pos hk
  have hpos : 0 < halves rank * 10 ^ a / halvesPerOne :=
    Nat.div_pos (hsmall.trans (Nat.mul_le_mul_right _ (by rw [halves]; omega))) halvesPerOne_pos
  obtain ⟨d, hd⟩ := Nat.exists_eq_succ_of_ne_zero
    (Decimal.digitCount_pos (halves rank * 10 ^ a / halvesPerOne)).ne'
  have hlow := Decimal.pow_digitCount_le hpos
  have hhigh := Decimal.lt_pow_digitCount (halves rank * 10 ^ a / halvesPerOne)
  rw [Nat.succ_eq_add_one] at hd
  rw [hd, Nat.add_sub_cancel, Nat.le_div_iff_mul_le halvesPerOne_pos,
    halves, halvesPerOne] at hlow
  rw [hd, Nat.div_lt_iff_lt_mul halvesPerOne_pos, halves, halvesPerOne] at hhigh
  have hten : (0 : ℚ) < 10 ^ a := by positivity
  rw [hposition, hd]
  constructor
  · rw [show ((d + 1 : Nat) : Int) - a - 1 = d - a by push_cast; ring, zpow_sub₀ (by norm_num),
      div_mul_eq_mul_div, zpow_natCast, zpow_natCast, div_le_iff₀ hten]
    have : 10 ^ d * stepsPerOne ≤ units rank * 10 ^ a := by linarith
    exact_mod_cast this
  · rw [zpow_sub₀ (by norm_num), div_mul_eq_mul_div, zpow_natCast, zpow_natCast, lt_div_iff₀ hten]
    have : units rank * 10 ^ a < 10 ^ (d + 1) * stepsPerOne := by linarith
    exact_mod_cast this

/-- Seventeen digits tell a magnitude from its neighbours. -/
theorem neighbour?_seventeen (hk : 0 < rank) :
    (neighbour? rank (pointPosition rank - 17)).isSome := by
  apply neighbour?_of_fine hk
  have hspec := (pointPosition_spec hk).1
  have hunits : (units rank : ℚ) ≤ 2 ^ 53 * spacing (rank - 1) := by exact_mod_cast units_le hk
  have hspace : (0 : ℚ) < spacing (rank - 1) := by exact_mod_cast spacing_pos (rank - 1)
  rw [show pointPosition rank - 1 = (pointPosition rank - 17) + 16 by ring,
    zpow_add₀ (by norm_num)] at hspec
  generalize pointPosition rank - 17 = place at hspec ⊢
  have hfine : (10 : ℚ) ^ place * stepsPerOne < spacing (rank - 1) := by
    generalize (stepsPerOne : ℚ) = one at hspec ⊢
    norm_num at hspec hunits
    linarith
  rw [← Nat.cast_lt (α := ℚ), ← Nat.one_mul (halvesPerOne * _), cast_scaled, ← Nat.mul_assoc,
    Nat.cast_mul, mul_lt_mul_iff_left₀ (by positivity), halvesPerOne]
  push_cast
  linarith

theorem firstGrid_found {tries digits e : Nat} (h : (neighbour? rank (position - e)).isSome)
    (hlow : digits ≤ e) (hhigh : e < digits + tries) : ∃ c d : Nat, d ≤ e ∧
      neighbour? rank (position - d) = some c ∧
      firstGrid rank position tries digits = (c, position - d) := by
  induction tries generalizing digits with
  | zero => omega
  | succ tries ih =>
    rw [firstGrid]
    cases hn : neighbour? rank (position - digits) with
    | some c => exact ⟨c, digits, hlow, hn, rfl⟩
    | none =>
      have hne : digits ≠ e := by
        rintro rfl
        simp [hn] at h
      exact ih (by omega) (by omega)

/-- The decimal that a positive magnitude is written as. -/
def decimal (rank : Nat) : ℚ := (shortest rank).1 * 10 ^ (shortest rank).2

theorem shortest_found (hk : 0 < rank) : neighbour? rank (shortest rank).2 = some (shortest rank).1 := by
  obtain ⟨c, d, -, hn, hs⟩ : ∃ c d : Nat, d ≤ 17 ∧ neighbour? rank (pointPosition rank - d) = some c ∧
      firstGrid rank (pointPosition rank) 17 1 = (c, pointPosition rank - d) :=
    firstGrid_found (neighbour?_seventeen hk) (by decide) (by decide)
  rwa [shortest, hs]

/-- **A magnitude is written as a decimal that rounds to it.** -/
theorem decimal_inside (hk : 0 < rank) : (lowerEnd rank : ℚ) ≤ decimal rank * halvesPerOne ∧
    decimal rank * halvesPerOne ≤ upperEnd rank :=
  inside_iff.1 (neighbour?_inside (shortest_found hk))

theorem decimal_near (hk : 0 < rank) : (units rank : ℚ) ≤ 2 * (decimal rank * stepsPerOne) ∧
    2 * (decimal rank * stepsPerOne) ≤ 3 * units rank := by
  obtain ⟨hlow, hhigh⟩ := decimal_inside hk
  have hle : (units rank : ℚ) ≤ lowerEnd rank := by
    exact_mod_cast Nat.le_add_left _ _
  have hge : (upperEnd rank : ℚ) ≤ 3 * units rank := by
    have := spacing_le_units hk
    have := units_succ rank
    have : upperEnd rank ≤ 3 * units rank := by rw [upperEnd]; omega
    exact_mod_cast this
  rw [halvesPerOne] at hlow hhigh
  push_cast at hlow hhigh
  constructor <;> linarith

/-! ## Whole numbers -/

section Whole

variable {n m : Nat} (hn : n < 2 ^ 53) (hk : 0 < rank) (hunits : units rank = n * stepsPerOne)
include hn hk hunits

theorem pointPosition_nat : 0 < pointPosition rank ∧ pointPosition rank ≤ 16 := by
  have hone : (0 : ℚ) < stepsPerOne := by exact_mod_cast stepsPerOne_pos
  obtain ⟨hlow, hhigh⟩ := pointPosition_spec hk
  rw [hunits, Nat.cast_mul] at hlow hhigh
  replace hlow := le_of_mul_le_mul_right hlow hone
  replace hhigh := lt_of_mul_lt_mul_right hhigh hone.le
  have hnpos : 0 < n := by
    apply Nat.pos_of_ne_zero
    rintro rfl
    have := units_pos hk
    omega
  have hbase : (1 : ℚ) < 10 := by norm_num
  constructor
  · have hfirst : (10 : ℚ) ^ (0 : Int) < 10 ^ pointPosition rank := calc
      (10 : ℚ) ^ (0 : Int) = 1 := zpow_zero 10
      _ ≤ n := by exact_mod_cast hnpos
      _ < 10 ^ pointPosition rank := hhigh
    exact (zpow_lt_zpow_iff_right₀ hbase).1 hfirst
  · have hlast : (10 : ℚ) ^ (pointPosition rank - 1) < 10 ^ (16 : Int) := calc
      (10 : ℚ) ^ (pointPosition rank - 1) ≤ n := hlow
      _ < 2 ^ 53 := by exact_mod_cast hn
      _ < 10 ^ (16 : Int) := by norm_num
    have := (zpow_lt_zpow_iff_right₀ hbase).1 hlast
    omega

theorem eq_of_inside (hlow : lowerEnd rank ≤ m * halvesPerOne)
    (hhigh : m * halvesPerOne ≤ upperEnd rank) : m = n := by
  have hlower := lowerEnd_eq hk
  have hupper := upperEnd_eq rank
  have hspace : spacing rank ≤ stepsPerOne := by
    apply spacing_le_one
    rw [hunits]
    exact Nat.mul_lt_mul_of_pos_right hn stepsPerOne_pos
  have hspace' := spacing_mono (Nat.sub_le rank 1)
  have hhalves : halves rank = n * halvesPerOne := by
    rw [halves, halvesPerOne, hunits]
    ring
  have hpos := stepsPerOne_pos
  -- whole numbers are two halves of a one apart, and the interval reaches over one half at most
  have hgap {a b : Nat} (h : a < b) : a * halvesPerOne + 2 * stepsPerOne ≤ b * halvesPerOne := by
    have := Nat.mul_le_mul_right halvesPerOne (Nat.succ_le_of_lt h)
    rwa [Nat.succ_mul] at this
  by_contra hne
  rcases Nat.lt_or_gt_of_ne hne with h | h
  · have := hgap h
    omega
  · have := hgap h
    omega

theorem decimal_nat : decimal rank = n := by
  obtain ⟨hfirst, hlast⟩ := pointPosition_nat hn hk hunits
  obtain ⟨e, he⟩ := Int.eq_ofNat_of_zero_le hfirst.le
  -- the grid of ones has the number on it, and the search comes to that grid
  have hwhole : (neighbour? rank (pointPosition rank - e)).isSome := by
    rw [he, Int.sub_self]
    exact neighbour?_of_whole hk hunits
  obtain ⟨c, d, hd, hc, hs⟩ : ∃ c d : Nat, d ≤ e ∧ neighbour? rank (pointPosition rank - d) = some c ∧
      firstGrid rank (pointPosition rank) 17 1 = (c, pointPosition rank - d) :=
    firstGrid_found hwhole (by omega) (by omega)
  obtain ⟨i, hi⟩ := Int.eq_ofNat_of_zero_le (show 0 ≤ pointPosition rank - d by omega)
  obtain ⟨hlow, hhigh⟩ := inside_iff.1 (neighbour?_inside hc)
  rw [decimal, shortest, hs, hi]
  rw [hi, zpow_natCast] at hlow hhigh
  have heq : c * 10 ^ i = n := by
    apply eq_of_inside hn hk hunits
    · exact_mod_cast hlow
    · exact_mod_cast hhigh
  rw [zpow_natCast]
  exact_mod_cast heq

end Whole

end Lifecycle.Double
