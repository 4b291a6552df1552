import Lifecycle.Number.Double
import Mathlib

/- The grid of doubles, point by point.

   The points of one binade lie `spacing` steps apart, so the next point is one spacing
   further (`units_succ`) and never more than twice as far from zero. The nearest point
   to a fraction is at most half a spacing away from it (`units_nearestRank` and
   `roundHalfEven_bounds`), and is the fraction itself where that is a whole number
   below 2^53. -/
namespace Lifecycle.Double

theorem stepsPerOne_pos : 0 < stepsPerOne := by decide +kernel

theorem binade_pos : 0 < binade := by decide

theorem binade_eq : binade = 2 ^ 52 := rfl

/-- The exponent is named, so that the power is never computed. -/
theorem stepsPerOne_pow : ∃ e, e = 1074 ∧ stepsPerOne = 2 ^ e := ⟨1074, rfl, by decide +kernel⟩

/-! ## Neighbours -/

/-- The distance from a grid point to the next. -/
def spacing (rank : Nat) : Nat := 2 ^ (rank / binade - 1)

theorem units_small {k : Nat} (h : k < 2 * binade) : units k = k := by simp [units, h]

/-- A rank past the first binades, as a mantissa and a power of two. -/
theorem units_scaled {shift m : Nat} (hm : m ≤ 2 * binade) (h : shift = 0 ∨ binade ≤ m) :
    units (shift * binade + m) = m * 2 ^ shift := by
  have hb := binade_pos
  by_cases hs : shift = 0 ∧ m < 2 * binade
  · obtain ⟨rfl, hm⟩ := hs
    simp [units_small hm]
  · have hbm : binade ≤ m := by omega
    have hlarge : ¬ shift * binade + m < 2 * binade := by
      rcases Nat.eq_zero_or_pos shift with rfl | hpos
      · omega
      · have := Nat.le_mul_of_pos_left binade hpos
        omega
    obtain ⟨i, rfl⟩ := Nat.exists_eq_add_of_le hbm
    rw [units, if_neg hlarge, show shift * binade + (binade + i) = i + binade * (shift + 1) by ring,
      Nat.add_mul_mod_self_left, Nat.add_mul_div_left _ _ hb]
    -- The last mantissa of a binade is the first one of the next, halved.
    rcases Nat.lt_or_ge i binade with hi | hi
    · rw [Nat.mod_eq_of_lt hi, Nat.div_eq_of_lt hi, Nat.zero_add, Nat.add_sub_cancel]
      rfl
    · obtain rfl : i = binade := by omega
      rw [Nat.mod_self, Nat.div_self hb, show 1 + (shift + 1) - 1 = shift + 1 by omega]
      show (binade + 0) * 2 ^ (shift + 1) = _
      ring

theorem rank_cases (k : Nat) : k < binade ∨
    ∃ shift m, binade ≤ m ∧ m < 2 * binade ∧ k = shift * binade + m ∧ spacing k = 2 ^ shift := by
  have hb := binade_pos
  rcases Nat.lt_or_ge k binade with hk | hk
  · exact .inl hk
  · have hpos := Nat.div_pos hk hb
    have hmod := Nat.mod_lt k hb
    have hdiv := Nat.div_add_mod k binade
    refine .inr ⟨k / binade - 1, binade + k % binade, by omega, by omega, ?_, rfl⟩
    calc k = binade * (k / binade - 1 + 1) + k % binade := by rw [Nat.sub_add_cancel hpos, hdiv]
      _ = (k / binade - 1) * binade + (binade + k % binade) := by ring

theorem units_succ (k : Nat) : units (k + 1) = units k + spacing k := by
  obtain hk | ⟨shift, m, hlow, hhigh, rfl, hs⟩ := rank_cases k
  · rw [units_small (by omega), units_small (by omega), spacing, Nat.div_eq_of_lt hk]
    rfl
  · rw [hs, Nat.add_assoc, units_scaled (by omega) (.inr (by omega)),
      units_scaled (by omega) (.inr hlow)]
    ring

theorem spacing_le_units {k : Nat} (hk : 0 < k) : spacing k ≤ units k := by
  obtain hb | ⟨shift, m, hlow, hhigh, rfl, hs⟩ := rank_cases k
  · rw [units_small (by omega), spacing, Nat.div_eq_of_lt hb]
    exact hk
  · rw [hs, units_scaled (by omega) (.inr hlow)]
    exact Nat.le_mul_of_pos_left _ (by have := binade_pos; omega)

theorem spacing_pos (k : Nat) : 0 < spacing k := Nat.two_pow_pos _

theorem units_pos {k : Nat} (hk : 0 < k) : 0 < units k :=
  Nat.lt_of_lt_of_le (spacing_pos k) (spacing_le_units hk)

theorem units_zero : units 0 = 0 := units_small (by have := binade_pos; omega)

theorem spacing_le_one {k : Nat} (h : units k < 2 ^ 53 * stepsPerOne) : spacing k ≤ stepsPerOne := by
  obtain hb | ⟨shift, m, hlow, hhigh, rfl, hs⟩ := rank_cases k
  · rw [spacing, Nat.div_eq_of_lt hb]
    exact stepsPerOne_pos
  · obtain ⟨e, -, he⟩ := stepsPerOne_pow
    rw [units_scaled (by omega) (.inr hlow), he] at h
    have hlt : 2 ^ (52 + shift) < 2 ^ (53 + e) := by
      calc 2 ^ (52 + shift) = binade * 2 ^ shift := by rw [Nat.pow_add, binade_eq]
        _ ≤ m * 2 ^ shift := Nat.mul_le_mul_right _ hlow
        _ < 2 ^ 53 * 2 ^ e := h
        _ = 2 ^ (53 + e) := (Nat.pow_add ..).symm
    have := (Nat.pow_lt_pow_iff_right (by decide : 1 < 2)).1 hlt
    rw [hs, he]
    exact Nat.pow_le_pow_right (by decide) (by omega)

theorem rank_lt_of_units_lt {k : Nat} (h : units k < 2 ^ 53 * stepsPerOne) : k < finiteRanks := by
  obtain ⟨e, he, hone⟩ := stepsPerOne_pow
  have hspace := spacing_le_one h
  rw [hone, spacing, Nat.pow_le_pow_iff_right (by decide)] at hspace
  have hdiv : k / binade < 1076 := by omega
  have := (Nat.div_lt_iff_lt_mul binade_pos).1 hdiv
  rw [finiteRanks]
  omega

/-! ## The nearest point -/

theorem roundHalfEven_bounds (num : Nat) {den : Nat} (hd : 0 < den) :
    2 * (roundHalfEven num den * den) ≤ 2 * num + den ∧
      2 * num ≤ 2 * (roundHalfEven num den * den) + den := by
  have hdiv := Nat.div_add_mod num den
  have hmod := Nat.mod_lt num hd
  have hq : (num / den + 1) * den = den * (num / den) + den := by ring
  have hq' : num / den * den = den * (num / den) := by ring
  unfold roundHalfEven
  simp only
  split
  · omega
  · split
    · omega
    · rcases Nat.mod_two_eq_zero_or_one (num / den) with he | he <;> rw [he]
      · rw [Nat.add_zero]; omega
      · omega

theorem roundHalfEven_mul (n : Nat) {den : Nat} (hd : 0 < den) : roundHalfEven (n * den) den = n := by
  simp [roundHalfEven, hd]

theorem roundHalfEven_range (num den : Nat) :
    num / den ≤ roundHalfEven num den ∧ roundHalfEven num den ≤ num / den + 1 := by
  unfold roundHalfEven
  simp only
  split
  · omega
  · split <;> omega

/-- The nearest rank is a rounded mantissa in a binade. Past the first binades the fraction is at
    least the first point of that binade. -/
theorem nearestRank_parts (num : Nat) {den : Nat} (hd : 0 < den) :
    ∃ shift, shift = Nat.log2 (num / den) - 52 ∧
      nearestRank num den = shift * binade + roundHalfEven num (den * 2 ^ shift) ∧
      roundHalfEven num (den * 2 ^ shift) ≤ 2 * binade ∧
      (shift = 0 ∨ binade ≤ roundHalfEven num (den * 2 ^ shift) ∧ binade * (den * 2 ^ shift) ≤ num) := by
  generalize hs : Nat.log2 (num / den) - 52 = shift
  refine ⟨shift, rfl, by rw [nearestRank, hs]; rfl, ?_⟩
  have hround := roundHalfEven_range num (den * 2 ^ shift)
  rw [← Nat.div_div_eq_div_mul] at hround
  have hhigh : num / den / 2 ^ shift < 2 ^ 53 := by
    rw [Nat.div_lt_iff_lt_mul (Nat.two_pow_pos _), ← Nat.pow_add]
    exact Nat.lt_of_lt_of_le Nat.lt_log2_self (Nat.pow_le_pow_right (by decide) (by omega))
  have hlow : shift = 0 ∨ 2 ^ 52 ≤ num / den / 2 ^ shift := by
    refine or_iff_not_imp_left.2 fun hpos => ?_
    rw [Nat.le_div_iff_mul_le (Nat.two_pow_pos _), ← Nat.pow_add,
      show 52 + shift = Nat.log2 (num / den) by omega]
    exact Nat.log2_self_le (fun h0 => by simp [h0] at hs; omega)
  refine ⟨by rw [binade_eq]; omega, hlow.imp_right fun h => ⟨by rw [binade_eq]; omega, ?_⟩⟩
  rw [Nat.div_div_eq_div_mul] at h
  exact (Nat.le_div_iff_mul_le (Nat.mul_pos hd (Nat.two_pow_pos _))).1 h

theorem units_nearestRank (num : Nat) {den : Nat} (hd : 0 < den) :
    ∃ shift, shift = Nat.log2 (num / den) - 52 ∧
      units (nearestRank num den) = roundHalfEven num (den * 2 ^ shift) * 2 ^ shift := by
  obtain ⟨shift, hs, hrank, hle, hlow⟩ := nearestRank_parts num hd
  refine ⟨shift, hs, ?_⟩
  rw [hrank]
  exact units_scaled hle (hlow.imp_right And.left)

theorem nearestRank_bounds {num den : Nat} (hd : 0 < den) (hk : 0 < nearestRank num den) :
    units (nearestRank num den) * den ≤ 2 * num ∧ 2 * num ≤ 3 * (units (nearestRank num den) * den) := by
  obtain ⟨shift, -, heq⟩ := units_nearestRank num hd
  have hpos := units_pos hk
  rw [heq] at hpos ⊢
  obtain ⟨hle, hge⟩ := roundHalfEven_bounds num (Nat.mul_pos hd (Nat.two_pow_pos shift))
  have hone : den * 2 ^ shift ≤ roundHalfEven num (den * 2 ^ shift) * (den * 2 ^ shift) :=
    Nat.le_mul_of_pos_left _ (Nat.pos_of_mul_pos_right hpos)
  rw [show roundHalfEven num (den * 2 ^ shift) * 2 ^ shift * den =
    roundHalfEven num (den * 2 ^ shift) * (den * 2 ^ shift) by ring]
  omega

/-- A whole number below 2^53 is a grid point, and so is every multiple of it by a power of two. -/
theorem units_nearestRank_scaled {m : Nat} (e : Nat) (hm : m < 2 ^ 53) :
    units (nearestRank (m * 2 ^ e) 1) = m * 2 ^ e := by
  obtain ⟨shift, hs, heq⟩ := units_nearestRank (m * 2 ^ e) Nat.one_pos
  rw [Nat.div_one] at hs
  have hshift : shift ≤ e := by
    have hlt : m * 2 ^ e < 2 ^ (53 + e) := by
      rw [Nat.pow_add]
      exact Nat.mul_lt_mul_of_pos_right hm (Nat.two_pow_pos e)
    rcases Nat.eq_zero_or_pos (m * 2 ^ e) with h0 | hpos
    · rw [h0] at hs
      simp at hs
      omega
    · have := (Nat.log2_lt (by omega)).2 hlt
      omega
  obtain ⟨i, rfl⟩ := Nat.exists_eq_add_of_le hshift
  have hsplit : m * 2 ^ (shift + i) = m * 2 ^ i * 2 ^ shift := by
    rw [Nat.pow_add]
    ring
  rw [heq, Nat.one_mul, hsplit, roundHalfEven_mul _ (Nat.two_pow_pos _)]

theorem units_nearestRank_nat {n : Nat} (hn : n < 2 ^ 53) :
    units (nearestRank (n * stepsPerOne) 1) = n * stepsPerOne := by
  obtain ⟨e, -, hone⟩ := stepsPerOne_pow
  rw [hone]
  exact units_nearestRank_scaled e hn

/-! ## Whole numbers -/

theorem reaches_iff {x : Double} {k n : Int} (h : x.toInt? = some k) :
    x.reaches n = true ↔ n ≤ k := by
  unfold toInt? at h
  cases x with
  | nan => simp [steps?] at h
  | infinite negative => simp [steps?] at h
  | finite negative rank =>
    simp only [steps?] at h
    simp only [reaches, decide_eq_true_eq]
    generalize (if negative = true then -(units rank.val : Int)
      else units rank.val) = s at h ⊢
    split at h
    · rename_i hs
      cases h
      have hpos : (0 : Int) < stepsPerOne := by exact_mod_cast stepsPerOne_pos
      exact (Int.le_ediv_iff_mul_le hpos).symm
    · cases h

end Lifecycle.Double
