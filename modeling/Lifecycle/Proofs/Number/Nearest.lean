import Lifecycle.Proofs.Number.Literal

/- Rounding to the grid.

   A number rounds to a grid point if it lies in the interval around it, and not on an end
   of the interval unless the rank is even. The nearest point to a fraction is one that
   the fraction rounds to (`rounds_nearestRank`), and a number rounds to no two points
   (`Rounds.unique`). So a decimal number in the interval of a double has that double
   as its nearest one (`toDouble_of_rounds`), and this is how the decimal that a double
   is written as is read back (`decimal_rounds`). -/
namespace Lifecycle

namespace Double

variable {rank j k num den : Nat} {q : ℚ}

/-- Whether a number of steps rounds to a grid point. -/
def Rounds (rank : Nat) (q : ℚ) : Prop :=
  ((lowerEnd rank : ℚ) ≤ 2 * q ∧ 2 * q ≤ upperEnd rank) ∧
    (rank % 2 = 1 → (lowerEnd rank : ℚ) < 2 * q ∧ 2 * q < upperEnd rank)

/-! ## The nearest point -/

theorem roundHalfEven_strict (num : Nat) (hd : 0 < den) (h : roundHalfEven num den % 2 = 1) :
    2 * (roundHalfEven num den * den) < 2 * num + den ∧
      2 * num < 2 * (roundHalfEven num den * den) + den := by
  have hdiv := Nat.div_add_mod num den
  have hmod := Nat.mod_lt num hd
  have hq : (num / den + 1) * den = den * (num / den) + den := by ring
  have hq' : num / den * den = den * (num / den) := by ring
  unfold roundHalfEven at h ⊢
  simp only at h ⊢
  split
  · omega
  · rename_i hlow
    rw [if_neg hlow] at h
    split
    · omega
    · -- half way between two numbers the result is even
      rename_i hhigh
      rw [if_neg hhigh] at h
      omega

theorem units_strictMono : StrictMono units := by
  refine strictMono_nat_of_lt_succ fun k => ?_
  rw [units_succ]
  have := spacing_pos k
  omega

/-- A point past the first binades is at least as far from the next one as its binade says. -/
theorem le_spacing {shift m : Nat} (h : shift = 0 ∨ binade ≤ m) :
    2 ^ shift ≤ spacing (shift * binade + m) := by
  unfold spacing
  apply Nat.pow_le_pow_right (by decide)
  rcases h with rfl | h
  · exact Nat.zero_le _
  · have hdiv : shift + 1 ≤ (shift * binade + m) / binade := by
      rw [Nat.le_div_iff_mul_le binade_pos, Nat.add_mul, Nat.one_mul]
      exact Nat.add_le_add_left h _
    omega

theorem lowerEnd_zero : lowerEnd 0 = 0 := by
  rw [lowerEnd, Nat.zero_sub, units_zero]

theorem lowerEnd_le_halves (rank : Nat) : lowerEnd rank ≤ halves rank := by
  have := units_strictMono.monotone (Nat.sub_le rank 1)
  rw [lowerEnd, halves]
  omega

theorem binade_even : binade % 2 = 0 := by decide

theorem upperEnd_ge {shift m : Nat} (hm : m ≤ 2 * binade) (h : shift = 0 ∨ binade ≤ m) :
    2 * (m * 2 ^ shift) + 2 ^ shift ≤ upperEnd (shift * binade + m) := by
  have := le_spacing h
  rw [upperEnd_eq, halves, units_scaled hm h]
  omega

/-- And so is half a spacing below it, unless the point is the first of its binade. -/
theorem lowerEnd_le {shift m : Nat} (hm : m ≤ 2 * binade) (h : shift = 0 ∨ binade ≤ m)
    (hpos : 0 < shift * binade + m) (hfirst : shift = 0 ∨ m ≠ binade) :
    lowerEnd (shift * binade + m) + 2 ^ shift ≤ 2 * (m * 2 ^ shift) := by
  have hbelow : 2 ^ shift ≤ spacing (shift * binade + m - 1) := by
    rcases Nat.eq_zero_or_pos shift with rfl | hshift
    · exact spacing_pos _
    · have hlow := h.resolve_left hshift.ne'
      have hne := hfirst.resolve_left hshift.ne'
      rw [show shift * binade + m - 1 = shift * binade + (m - 1) by omega]
      exact le_spacing (.inr (by omega))
  have hends := lowerEnd_eq hpos
  rw [halves, units_scaled hm h] at hends
  omega

/-- The ends of the interval of the nearest point enclose the fraction, the more closely so if the
    rank is odd. -/
theorem nearestRank_between (num : Nat) (hd : 0 < den) :
    (lowerEnd (nearestRank num den) * den ≤ 2 * num ∧
      2 * num ≤ upperEnd (nearestRank num den) * den) ∧
    (nearestRank num den % 2 = 1 → lowerEnd (nearestRank num den) * den < 2 * num ∧
      2 * num < upperEnd (nearestRank num den) * den) := by
  obtain ⟨shift, -, hrank, hle, hlow⟩ := nearestRank_parts num hd
  have hD : 0 < den * 2 ^ shift := Nat.mul_pos hd (Nat.two_pow_pos _)
  have hround := roundHalfEven_bounds num hD
  have hstrict := roundHalfEven_strict num hD
  generalize roundHalfEven num (den * 2 ^ shift) = r at hrank hle hlow hround hstrict
  have hscaled := hlow.imp_right And.left
  have hwhole : 2 * (r * 2 ^ shift) * den = 2 * (r * (den * 2 ^ shift)) := by ring
  have hparity : (shift * binade + r) % 2 = 1 → r % 2 = 1 := by
    intro h
    have : shift * binade % 2 = 0 := by rw [Nat.mul_mod, binade_even]; simp
    omega
  have hupper := Nat.mul_le_mul_right den (upperEnd_ge hle hscaled)
  rw [Nat.add_mul, hwhole, Nat.mul_comm (2 ^ shift)] at hupper
  rw [hrank]
  -- the lower end is as far away as the rounding went, unless the point is the first of its binade:
  -- such a point is even, and the rounding did not go up
  by_cases hfirst : shift ≠ 0 ∧ r = binade ∨ shift * binade + r = 0
  · have heven : (shift * binade + r) % 2 = 0 := by
      obtain ⟨-, rfl⟩ | hzero := hfirst
      · rw [← Nat.succ_mul, Nat.mul_mod, binade_even]
        simp
      · rw [hzero]
    have hlower : lowerEnd (shift * binade + r) * den ≤ 2 * num := by
      obtain ⟨hshift, hr⟩ | hzero := hfirst
      · have hnum := (hlow.resolve_left hshift).2
        rw [← hr] at hnum
        have hle := Nat.mul_le_mul_right den (lowerEnd_le_halves (shift * binade + r))
        rw [halves, units_scaled (by omega) hscaled, hwhole] at hle
        omega
      · rw [hzero, lowerEnd_zero]
        omega
    exact ⟨⟨hlower, by omega⟩, fun h => by omega⟩
  · simp only [not_or, not_and_or, not_not] at hfirst
    have hlower := Nat.mul_le_mul_right den
      (lowerEnd_le hle hscaled (Nat.pos_of_ne_zero hfirst.2) hfirst.1)
    rw [Nat.add_mul, hwhole, Nat.mul_comm (2 ^ shift)] at hlower
    refine ⟨⟨by omega, by omega⟩, fun h => ?_⟩
    have := hstrict (hparity h)
    omega

theorem rounds_nearestRank (num : Nat) (hd : 0 < den) : Rounds (nearestRank num den) ((num : ℚ) / den) := by
  have hpos : (0 : ℚ) < den := by exact_mod_cast hd
  obtain ⟨⟨hlow, hhigh⟩, hstrict⟩ := nearestRank_between num hd
  have hdouble : 2 * ((num : ℚ) / den) = (2 * num) / den := by ring
  rw [Rounds, hdouble, le_div_iff₀ hpos, div_le_iff₀ hpos, lt_div_iff₀ hpos, div_lt_iff₀ hpos]
  refine ⟨⟨by exact_mod_cast hlow, by exact_mod_cast hhigh⟩, fun h => ?_⟩
  obtain ⟨hlow, hhigh⟩ := hstrict h
  exact ⟨by exact_mod_cast hlow, by exact_mod_cast hhigh⟩

/-! ## One point only -/

/-- Intervals of different points have at most an end in common, and that if the points are
    neighbours. -/
theorem upperEnd_le (h : j < k) : upperEnd j ≤ lowerEnd k ∧ (j + 1 < k → upperEnd j < lowerEnd k) := by
  have hj : units j ≤ units (k - 1) := units_strictMono.monotone (by omega)
  have hk : units (j + 1) ≤ units k := units_strictMono.monotone h
  rw [upperEnd, lowerEnd]
  refine ⟨by omega, fun hlt => ?_⟩
  have := units_strictMono (show j < k - 1 by omega)
  omega

theorem Rounds.not_lt (hj : Rounds j q) (hk : Rounds k q) : ¬ j < k := by
  intro h
  obtain ⟨hle, hlt⟩ := upperEnd_le h
  have hle : (upperEnd j : ℚ) ≤ lowerEnd k := by exact_mod_cast hle
  -- both ends are at the number, so both ranks are even and not neighbours
  have hje : j % 2 ≠ 1 := by
    intro ho
    have := (hj.2 ho).2
    have := hk.1.1
    linarith
  have hke : k % 2 ≠ 1 := by
    intro ho
    have := (hk.2 ho).1
    have := hj.1.2
    linarith
  have hlt : (upperEnd j : ℚ) < lowerEnd k := by exact_mod_cast hlt (by omega)
  have := hj.1.2
  have := hk.1.1
  linarith

/-- **A number rounds to one point.** -/
theorem Rounds.unique (hj : Rounds j q) (hk : Rounds k q) : j = k := by
  have := hj.not_lt hk
  have := hk.not_lt hj
  omega

/-! ## Written magnitudes -/

theorem scaled_lt_iff {a s c : Nat} {place : Int} :
    a * 10 ^ (-place).toNat < c * (s * 10 ^ place.toNat) ↔ (a : ℚ) < c * 10 ^ place * s := by
  rw [← Nat.cast_lt (α := ℚ), cast_scaled, Nat.cast_mul, mul_lt_mul_iff_left₀ (by positivity)]

theorem lt_scaled_iff {a s c : Nat} {place : Int} :
    c * (s * 10 ^ place.toNat) < a * 10 ^ (-place).toNat ↔ (c : ℚ) * 10 ^ place * s < a := by
  rw [← Nat.cast_lt (α := ℚ), cast_scaled, Nat.cast_mul, mul_lt_mul_iff_left₀ (by positivity)]

/-- **A magnitude is written as a decimal that rounds to it**, and to no other one. -/
theorem decimal_rounds (hk : 0 < rank) : Rounds rank (decimal rank * stepsPerOne) := by
  have hhalf : 2 * (decimal rank * stepsPerOne) = decimal rank * halvesPerOne := by
    rw [halvesPerOne]
    push_cast
    ring
  rw [Rounds, hhalf]
  refine ⟨decimal_inside hk, fun hodd => ?_⟩
  have htest := strictly_between_of_true (neighbour?_test (shortest_found hk)) (by omega)
  exact ⟨scaled_lt_iff.1 htest.1, lt_scaled_iff.1 htest.2⟩

theorem units_lt (h : rank < finiteRanks) : units rank < 2 ^ 1024 * stepsPerOne := by
  obtain ⟨e, he, hone⟩ := stepsPerOne_pow
  obtain hb | ⟨shift, m, hlow, hhigh, rfl, -⟩ := rank_cases rank
  · have hsmall : binade ≤ 2 ^ 1024 := by decide +kernel
    rw [units_small (by omega)]
    have := Nat.mul_le_mul hsmall (Nat.succ_le_of_lt stepsPerOne_pos)
    omega
  · have hshift : shift ≤ 2045 := by
      rw [finiteRanks] at h
      have : (shift + 1) * binade < 2047 * binade := by
        rw [Nat.add_mul, Nat.one_mul]
        omega
      have := Nat.lt_of_mul_lt_mul_right this
      omega
    rw [units_scaled (by omega) (.inr hlow), hone, ← Nat.pow_add]
    calc m * 2 ^ shift < 2 ^ 53 * 2 ^ shift :=
          Nat.mul_lt_mul_of_pos_right (by rw [binade_eq] at hhigh; omega) (Nat.two_pow_pos _)
      _ = 2 ^ (53 + shift) := (Nat.pow_add ..).symm
      _ ≤ 2 ^ (1024 + e) := Nat.pow_le_pow_right (by decide) (by omega)

/-- What rounds to a finite double other than zero is neither too small nor too large. -/
theorem Rounds.bounds (hk : 0 < rank) (hf : rank < finiteRanks) (h : Rounds rank q) :
    1 ≤ 2 * q ∧ q < 2 * 2 ^ 1024 * stepsPerOne := by
  have hpos : (1 : ℚ) ≤ units rank := by exact_mod_cast units_pos hk
  have hlower : (units rank : ℚ) ≤ lowerEnd rank := by exact_mod_cast Nat.le_add_left _ _
  have hupper : (upperEnd rank : ℚ) ≤ 3 * units rank := by
    have hnext := units_succ rank
    have hspace := spacing_le_units hk
    have : upperEnd rank ≤ 3 * units rank := by
      rw [upperEnd]
      omega
    exact_mod_cast this
  have hfinite : (units rank : ℚ) < 2 ^ 1024 * stepsPerOne := by exact_mod_cast units_lt hf
  obtain ⟨hlow, hhigh⟩ := h.1
  rw [mul_assoc]
  generalize (2 : ℚ) ^ 1024 * stepsPerOne = bound at hfinite ⊢
  constructor <;> linarith

end Double

namespace Decimal

variable {d : Decimal} {rank : Nat}

theorem magnitude_bounds (hc : d.coefficient ≠ 0) :
    (10 : ℚ) ^ ((digitCount d.coefficient : Int) + d.exponent - 1) ≤ d.magnitude ∧
      d.magnitude < (10 : ℚ) ^ ((digitCount d.coefficient : Int) + d.exponent) := by
  have hlow := pow_digitCount_le (Nat.pos_of_ne_zero hc)
  have hhigh := lt_pow_digitCount d.coefficient
  obtain ⟨i, hi⟩ := Nat.exists_eq_succ_of_ne_zero (digitCount_pos d.coefficient).ne'
  rw [hi] at hlow hhigh ⊢
  rw [Nat.succ_sub_one] at hlow
  have hlow : (10 : ℚ) ^ i ≤ d.coefficient := by exact_mod_cast hlow
  have hhigh : (d.coefficient : ℚ) < 10 ^ (i + 1) := by exact_mod_cast hhigh
  have hexp : (0 : ℚ) < 10 ^ d.exponent := by positivity
  rw [magnitude]
  constructor
  · rw [show ((i.succ : Nat) : Int) + d.exponent - 1 = i + d.exponent by push_cast; ring,
      zpow_add₀ (by norm_num), zpow_natCast]
    exact mul_le_mul_of_nonneg_right hlow hexp.le
  · rw [zpow_add₀ (by norm_num), zpow_natCast]
    exact mul_lt_mul_of_pos_right hhigh hexp

/-- A decimal number that rounds to a finite double is in the range that is looked at. -/
theorem range_of_rounds (hk : 0 < rank) (hf : rank < finiteRanks)
    (h : Double.Rounds rank (d.magnitude * Double.stepsPerOne)) : d.coefficient ≠ 0 ∧
      -330 ≤ (digitCount d.coefficient : Int) + d.exponent ∧
      (digitCount d.coefficient : Int) + d.exponent ≤ 330 := by
  obtain ⟨hlow, hhigh⟩ := h.bounds hk hf
  have hone : (0 : ℚ) < Double.stepsPerOne := by exact_mod_cast Double.stepsPerOne_pos
  have hc : d.coefficient ≠ 0 := by
    intro hzero
    rw [magnitude, hzero, Nat.cast_zero, zero_mul, zero_mul] at hlow
    linarith
  obtain ⟨hmin, hmax⟩ := magnitude_bounds hc
  refine ⟨hc, ?_, ?_⟩
  · by_contra hlt
    have htiny : (10 : ℚ) ^ ((digitCount d.coefficient : Int) + d.exponent) ≤ 10 ^ (-331 : Int) :=
      zpow_le_zpow_right₀ (by norm_num) (by omega)
    have hsteps : 2 * ((10 : ℚ) ^ (-331 : Int) * Double.stepsPerOne) < 1 := by
      rw [zpow_neg, inv_mul_eq_div, mul_div_assoc', div_lt_one (by positivity)]
      have : 2 * Double.stepsPerOne < 10 ^ 331 := by decide +kernel
      exact_mod_cast this
    have := mul_lt_mul_of_pos_right (hmax.trans_le htiny) hone
    linarith
  · by_contra hgt
    have hhuge : (10 : ℚ) ^ (330 : Int) ≤ 10 ^ ((digitCount d.coefficient : Int) + d.exponent - 1) :=
      zpow_le_zpow_right₀ (by norm_num) (by omega)
    have hbound : (2 : ℚ) * 2 ^ 1024 < 10 ^ (330 : Int) := by
      have : 2 * 2 ^ 1024 < 10 ^ 330 := by decide +kernel
      exact_mod_cast this
    have hmagnitude : d.magnitude < 2 * 2 ^ 1024 := lt_of_mul_lt_mul_right hhigh hone.le
    exact absurd (hhuge.trans hmin) (not_le.2 (hmagnitude.trans hbound))

/-- **A decimal number that rounds to a finite double has it as its nearest one.** -/
theorem toDouble_of_rounds {rank : Fin finiteRanks} (hk : 0 < rank.val)
    (h : Double.Rounds rank (d.magnitude * Double.stepsPerOne)) :
    d.toDouble = .finite d.negative rank := by
  obtain ⟨hc, hsmall, hlarge⟩ := range_of_rounds hk rank.isLt h
  obtain ⟨num, den, hden, hvalue, hsteps⟩ := toDouble_of_range hc hsmall hlarge
  have hrank : Double.nearestRank num den = rank :=
    (Double.rounds_nearestRank num hden).unique (hvalue ▸ h)
  rw [hsteps, Double.ofSteps, hrank, Double.ofRank, dif_pos rank.isLt]

end Decimal

end Lifecycle
