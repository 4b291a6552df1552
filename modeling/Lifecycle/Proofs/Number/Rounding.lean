import Lifecycle.Proofs.Number.Whole

/- What rounding can take away.

   A number from one on is at most half a spacing above the grid point it rounds to, and there that
   is no more than one part in 2^53 of the point (`Rounds.le_units`). So a double that is rounded
   down, in reading a literal or in multiplying, still has all but that part of the exact number
   (`toDouble_atLeast`, `AtLeast.scale`). Two roundings in a row can take it away twice. A product
   that fits into 53 bits but for a power of two loses nothing (`scale_exact`). -/
namespace Lifecycle

namespace Double

variable {x : Double} {q : ℚ} {k n : Nat}

/-- The greatest part of a grid point by which a number that rounds to it can exceed it. -/
def unitRoundoff : ℚ := 1 / 2 ^ 53

theorem unitRoundoff_pos : 0 < unitRoundoff := by norm_num [unitRoundoff]

/-- All whole numbers are past the first binade, also if half of one is taken away. -/
theorem two_binade_le_one : 2 * binade ≤ stepsPerOne := by
  obtain ⟨e, he, hone⟩ := stepsPerOne_pow
  rw [binade_eq, hone, ← Nat.pow_succ']
  exact Nat.pow_le_pow_right (by decide) (by omega)

/-! ## One rounding -/

/-- Past the first binade the next point is closer than a 2^52th of the distance from zero. -/
theorem spacing_part (h : binade ≤ k) : 2 ^ 52 * spacing k ≤ units k := by
  obtain hb | ⟨shift, m, hlow, hhigh, rfl, hs⟩ := rank_cases k
  · omega
  · rw [hs, units_scaled (by omega) (.inr hlow), ← binade_eq]
    exact Nat.mul_le_mul_right _ hlow

/-- **A number exceeds the point it rounds to by one part in 2^53 of that point at most.** -/
theorem Rounds.le_units (h : Rounds k q) (hq : binade ≤ q) : q ≤ units k * (1 + unitRoundoff) := by
  have hhigh := h.1.2
  have hk : binade ≤ k := by
    by_contra hlow
    have hend : upperEnd k < 2 * binade := by
      rw [upperEnd, units_small (by omega), units_small (by omega)]
      omega
    have : (upperEnd k : ℚ) < 2 * binade := by exact_mod_cast hend
    linarith
  have hspace : (2 ^ 52 : ℚ) * spacing k ≤ units k := by exact_mod_cast spacing_part hk
  rw [upperEnd_eq, halves] at hhigh
  push_cast at hhigh
  rw [unitRoundoff]
  linarith

/-! ## Lower bounds -/

/-- Whether a double is positive and at least a number of steps. -/
def AtLeast (q : ℚ) : Double → Prop
  | .nan => False
  | .infinite negative => negative = false
  | .finite negative rank => negative = false ∧ q ≤ units rank

theorem atLeast_ofRank (h : q ≤ units k) : (ofRank false k).AtLeast q := by
  rw [ofRank]
  split
  · exact ⟨rfl, h⟩
  · rfl

theorem atLeast_ofSteps {num : Nat} (h : binade ≤ num) :
    (ofSteps false num 1).AtLeast (num / (1 + unitRoundoff)) := by
  have hu := unitRoundoff_pos
  have hrounds := rounds_nearestRank num Nat.one_pos
  rw [Nat.cast_one, div_one] at hrounds
  refine atLeast_ofRank ?_
  rw [div_le_iff₀ (by linarith)]
  exact hrounds.le_units (by exact_mod_cast h)

namespace AtLeast

theorem mono {p : ℚ} (h : x.AtLeast q) (hp : p ≤ q) : x.AtLeast p := by
  cases x with
  | nan => exact h
  | infinite negative => exact h
  | finite negative rank => exact ⟨h.1, hp.trans h.2⟩

theorem scale (h : x.AtLeast q) (hq : binade ≤ q) {c : Nat} (hc : 0 < c) :
    (x.scale c).AtLeast (q * c / (1 + unitRoundoff)) := by
  cases x with
  | nan => exact h
  | infinite negative => exact h
  | finite negative rank =>
    obtain ⟨rfl, hunits⟩ := h
    have hbinade : binade ≤ units rank := by exact_mod_cast hq.trans hunits
    have hu := unitRoundoff_pos
    refine (atLeast_ofSteps (hbinade.trans (Nat.le_mul_of_pos_right _ hc))).mono ?_
    rw [Nat.cast_mul]
    have hc' : (0 : ℚ) ≤ c := c.cast_nonneg
    gcongr

theorem zero_lt (h : x.AtLeast q) (hq : 0 < q) : Double.zero.lt x = true := by
  have hzero : Double.zero = .finite false ⟨0, by decide⟩ := rfl
  cases x with
  | nan => exact h.elim
  | infinite negative =>
    cases h
    rfl
  | finite negative rank =>
    obtain ⟨rfl, hunits⟩ := h
    have hpos : 0 < units rank := by exact_mod_cast hq.trans_le hunits
    rw [hzero, lt]
    simp only [le, steps?, Bool.false_eq_true, if_false, Double.units_zero, Nat.cast_zero]
    simp only [Bool.and_eq_true, Bool.not_eq_true', decide_eq_true_eq, decide_eq_false_iff_not]
    omega

theorem reaches (h : x.AtLeast q) {m : Nat} (hm : m * stepsPerOne ≤ q) : x.reaches m = true := by
  cases x with
  | nan => exact h.elim
  | infinite negative =>
    cases h
    rfl
  | finite negative rank =>
    obtain ⟨rfl, hunits⟩ := h
    have hle : m * stepsPerOne ≤ units rank := by exact_mod_cast hm.trans hunits
    rw [Double.reaches, decide_eq_true_eq, if_neg Bool.false_ne_true]
    exact_mod_cast hle

end AtLeast

/-! ## Products without a loss -/

theorem rank_lt_of_units {e : Nat} (h : units k < 2 ^ e * stepsPerOne) (he : e ≤ 1024) :
    k < finiteRanks := by
  obtain ⟨top, htop, hlast⟩ : ∃ top, top = 1024 ∧ units finiteRanks = 2 ^ top * stepsPerOne :=
    ⟨1024, rfl, by decide +kernel⟩
  have hbound : 2 ^ e * stepsPerOne ≤ 2 ^ top * stepsPerOne :=
    Nat.mul_le_mul_right _ (Nat.pow_le_pow_right (by decide) (by omega))
  by_contra hge
  have := units_strictMono.monotone (Nat.le_of_not_lt hge)
  omega

/-- **A product that has 53 bits, or more if those after them are zeros, is exact.** -/
theorem scale_exact {rank : Fin finiteRanks} {c m e : Nat} (hunits : units rank = n * stepsPerOne)
    (hproduct : n * c = m * 2 ^ e) (hm : m < 2 ^ 53) (he : e ≤ 971) :
    ((finite false rank).scale c).toInt? = some ((n * c : Nat) : Int) := by
  obtain ⟨one, -, hone⟩ := stepsPerOne_pow
  have hsteps : units rank * c = m * 2 ^ (e + one) := by
    rw [hunits, Nat.mul_right_comm, hproduct, hone, Nat.pow_add]
    ring
  have hpoint := units_nearestRank_scaled (e + one) hm
  have hwhole : units (nearestRank (units rank * c) 1) = n * c * stepsPerOne := by
    rw [hsteps, hpoint, hproduct, hone, Nat.pow_add]
    ring
  have hbits : n * c < 2 ^ (53 + e) := by
    rw [hproduct, Nat.pow_add]
    exact Nat.mul_lt_mul_of_pos_right hm (Nat.two_pow_pos e)
  have hfinite : nearestRank (units rank * c) 1 < finiteRanks := by
    refine rank_lt_of_units (e := 53 + e) ?_ (by omega)
    rw [hwhole]
    exact Nat.mul_lt_mul_of_pos_right hbits stepsPerOne_pos
  have hvalue : units (Fin.mk _ hfinite).val = n * c * stepsPerOne := hwhole
  rw [scale, ofSteps, ofRank, dif_pos hfinite, toInt?_of_units hvalue]
  rfl

end Double

/-! ## Literals -/

namespace Literal

variable {l : Literal} {n : Nat}

theorem toDouble_atLeast (h : l.value = n) (hn : 0 < n) :
    l.toDouble.AtLeast (n * Double.stepsPerOne / (1 + Double.unitRoundoff)) := by
  obtain ⟨hmagnitude, hsign⟩ := magnitude_of_value h
  have hpositive : l.decimal.negative = false := by
    by_contra hnegative
    have hzero := hsign (Bool.eq_true_of_not_eq_false hnegative)
    omega
  have hone : (1 : ℚ) ≤ n := by exact_mod_cast hn
  obtain hinfinite | ⟨rank, hrank, hrounds⟩ := Decimal.toDouble_rounds (d := l.decimal) (by linarith)
  · rw [toDouble, hinfinite]
    exact hpositive
  · rw [toDouble, hrank]
    refine ⟨hpositive, ?_⟩
    have hu := Double.unitRoundoff_pos
    have hlarge : (binade : ℚ) ≤ n * Double.stepsPerOne := by
      have htwo := Double.two_binade_le_one
      have := Nat.le_mul_of_pos_left Double.stepsPerOne hn
      exact_mod_cast (by omega : binade ≤ n * Double.stepsPerOne)
    rw [hmagnitude] at hrounds
    rw [div_le_iff₀ (by linarith)]
    exact hrounds.le_units hlarge

end Literal

end Lifecycle
