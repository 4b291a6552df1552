import Lifecycle.Json.Literal
import Lifecycle.Proofs.Number.Shortest

/- The numbers that literals denote, and what a double keeps of them.

   A literal denotes a rational number, and a double one too: the decimal it is written
   as. A safe literal and its nearest double denote the same number
   (`written_of_safe`). An integer up to 2^53 - 1 is a grid point. Of any other safe
   literal the significant digits are those of the decimal, and as both numbers lie
   within half of the double's magnitude, no power of ten can come between them. -/
namespace Lifecycle

def signOf (negative : Bool) : ℚ := if negative then -1 else 1

namespace Decimal

def magnitude (d : Decimal) : ℚ := d.coefficient * 10 ^ d.exponent

def value (d : Decimal) : ℚ := signOf d.negative * d.magnitude

end Decimal

def Literal.value (l : Literal) : ℚ := l.decimal.value

/-- The number that a double is written as; only finite doubles are written as numbers. -/
def Double.written : Double → ℚ
  | .finite negative rank => if rank.val = 0 then 0 else signOf negative * decimal rank.val
  | _ => 0

namespace Decimal

variable {d : Decimal} {negative : Bool} {rank : Fin finiteRanks}

/-! ## The nearest double -/

theorem of_ofRank {k : Nat} (h : Double.ofRank d.negative k = .finite negative rank) :
    negative = d.negative ∧ rank.val = k := by
  unfold Double.ofRank at h
  split at h
  · cases h
    exact ⟨rfl, rfl⟩
  · cases h

theorem toDouble_of_range (hc : d.coefficient ≠ 0) (hlow : -330 ≤ (digitCount d.coefficient : Int) + d.exponent)
    (hhigh : (digitCount d.coefficient : Int) + d.exponent ≤ 330) :
    ∃ num den : Nat, 0 < den ∧ d.magnitude * Double.stepsPerOne = (num : ℚ) / den ∧
      d.toDouble = .ofSteps d.negative num den := by
  unfold toDouble
  simp only
  rw [if_neg hc, if_neg (by omega), if_neg (by omega)]
  split
  · rename_i he
    refine ⟨d.coefficient * Nat.pow 10 d.exponent.toNat * Double.stepsPerOne, 1, Nat.one_pos, ?_, rfl⟩
    obtain ⟨e, he⟩ := Int.eq_ofNat_of_zero_le he
    rw [magnitude, Nat.pow_eq, he, zpow_natCast, Int.toNat_natCast]
    push_cast
    ring
  · rename_i he
    refine ⟨d.coefficient * Double.stepsPerOne, Nat.pow 10 (-d.exponent).toNat,
      Nat.pow_pos (by decide), ?_, rfl⟩
    obtain ⟨e, he⟩ := Int.eq_ofNat_of_zero_le (show 0 ≤ -d.exponent by omega)
    rw [magnitude, Nat.pow_eq, he, Int.toNat_natCast, show d.exponent = -(e : Int) by omega,
      zpow_neg, zpow_natCast]
    push_cast
    ring

/-- Zero and the magnitudes out of range apart, the nearest double is that of a fraction. -/
theorem toDouble_cases (d : Decimal) : d.toDouble = .ofRank d.negative 0 ∨
    d.toDouble = .infinite d.negative ∨
    ∃ num den : Nat, 0 < den ∧ d.magnitude * Double.stepsPerOne = (num : ℚ) / den ∧
      d.toDouble = .ofSteps d.negative num den := by
  by_cases hc : d.coefficient = 0
  · exact .inl (by rw [toDouble, if_pos hc])
  by_cases hlow : (digitCount d.coefficient : Int) + d.exponent < -330
  · refine .inl ?_
    unfold toDouble
    simp only
    rw [if_neg hc, if_pos hlow]
  by_cases hhigh : 330 < (digitCount d.coefficient : Int) + d.exponent
  · refine .inr (.inl ?_)
    unfold toDouble
    simp only
    rw [if_neg hc, if_neg hlow, if_pos hhigh]
  · exact .inr (.inr (toDouble_of_range hc (by omega) (by omega)))

/-- A decimal number is within half of its nearest double, if that is finite and not zero. -/
theorem toDouble_near (h : d.toDouble = .finite negative rank) (hk : 0 < rank.val) :
    (Double.units rank : ℚ) ≤ 2 * (d.magnitude * Double.stepsPerOne) ∧
      2 * (d.magnitude * Double.stepsPerOne) ≤ 3 * Double.units rank := by
  obtain hzero | hinf | ⟨num, den, hden, hvalue, hsteps⟩ := toDouble_cases d
  · have := (of_ofRank (hzero.symm.trans h)).2
    omega
  · cases hinf.symm.trans h
  obtain ⟨-, hrank⟩ := of_ofRank (hsteps.symm.trans h)
  rw [hrank] at hk ⊢
  obtain ⟨hlow, hhigh⟩ := Double.nearestRank_bounds hden hk
  have hpos : (0 : ℚ) < den := by exact_mod_cast hden
  rw [hvalue, mul_div_assoc', le_div_iff₀ hpos, div_le_iff₀ hpos, mul_assoc]
  exact ⟨by exact_mod_cast hlow, by exact_mod_cast hhigh⟩

theorem toDouble_negative (h : d.toDouble = .finite negative rank) : negative = d.negative := by
  obtain hzero | hinf | ⟨num, den, -, -, hsteps⟩ := toDouble_cases d
  · exact (of_ofRank (hzero.symm.trans h)).1
  · cases hinf.symm.trans h
  · exact (of_ofRank (hsteps.symm.trans h)).1

theorem toDouble_nat {n : Nat} (hn : n < 2 ^ 53) (negative : Bool) :
    ∃ rank, toDouble ⟨negative, n, 0⟩ = .finite negative rank ∧
      Double.units rank = n * Double.stepsPerOne := by
  by_cases h0 : n = 0
  · subst h0
    exact ⟨⟨0, by decide⟩, rfl, by rw [Nat.zero_mul]; exact Double.units_zero⟩
  · have hunits := Double.units_nearestRank_nat hn
    have hfinite := Double.rank_lt_of_units_lt (k := Double.nearestRank (n * Double.stepsPerOne) 1) (by
      rw [hunits]
      exact Nat.mul_lt_mul_of_pos_right hn Double.stepsPerOne_pos)
    have hcount : digitCount n - 1 < 16 := by
      rw [← Nat.pow_lt_pow_iff_right (show 1 < 10 by decide)]
      exact (pow_digitCount_le (Nat.pos_of_ne_zero h0)).trans_lt (hn.trans (by decide))
    refine ⟨⟨_, hfinite⟩, ?_, hunits⟩
    unfold toDouble
    simp only
    rw [if_neg h0, if_neg (by omega), if_neg (by omega), if_pos le_rfl]
    rw [Int.toNat_zero, Nat.pow_eq, Nat.pow_zero, Nat.mul_one, Double.ofSteps, Double.ofRank,
      dif_pos hfinite]

/-- Two numbers of the same digits, neither more than three times the other, are the same. -/
theorem exponent_unique {a : ℚ} {i j : Int} (ha : 0 < a) (hij : a * 10 ^ i ≤ 3 * (a * 10 ^ j))
    (hji : a * 10 ^ j ≤ 3 * (a * 10 ^ i)) : i = j := by
  have step (m n : Int) (h : a * 10 ^ m ≤ 3 * (a * 10 ^ n)) : m ≤ n := by
    by_contra hlt
    have hle : (10 : ℚ) ^ (n + 1) ≤ 10 ^ m := zpow_le_zpow_right₀ (by norm_num) (by omega)
    rw [zpow_add₀ (by norm_num), zpow_one] at hle
    have hpos : (0 : ℚ) < 10 ^ n := by positivity
    nlinarith
  exact le_antisymm (step i j hij) (step j i hji)

end Decimal

namespace Double

variable {rank : Nat}

/-! ## The digits of a double -/

theorem decimal_pos (hk : 0 < rank) : 0 < decimal rank := by
  have hunits : (0 : ℚ) < units rank := by exact_mod_cast units_pos hk
  have hone : (0 : ℚ) < stepsPerOne := by exact_mod_cast stepsPerOne_pos
  have hnear := (decimal_near hk).1
  exact pos_of_mul_pos_left (by linarith) hone.le

/-- The digits of a double and the position of the point among them make the decimal. -/
theorem decimal_of_digits (hk : 0 < rank) : decimal rank =
    Decimal.ofDigits (shortestDigits rank).1 *
      10 ^ ((shortestDigits rank).2 - (shortestDigits rank).1.length) := by
  have hpos := decimal_pos hk
  rw [decimal] at hpos ⊢
  rw [shortestDigits, if_neg (by omega)]
  simp only
  generalize (shortest rank).2 = place at hpos ⊢
  generalize (shortest rank).1 = c at hpos ⊢
  have hc : 0 < c := by
    rcases Nat.eq_zero_or_pos c with rfl | hc
    · simp at hpos
    · exact hc
  obtain ⟨j, hj⟩ := Decimal.digitsOf_significant hc
  have hvalue := congrArg Decimal.ofDigits hj
  have hlength := congrArg List.length hj
  rw [Decimal.ofDigits_digitsOf, Decimal.ofDigits_append_zeros] at hvalue
  rw [List.length_append, List.length_replicate] at hlength
  generalize Decimal.significant (Decimal.digitsOf c) = ds at *
  rw [hlength, hvalue]
  push_cast
  rw [show (ds.length : Int) + j + place - ds.length = j + place by ring, zpow_add₀ (by norm_num),
    zpow_natCast]
  ring

theorem shortestDigits_cons (hk : 0 < rank) :
    ∃ d ds, (shortestDigits rank).1 = d :: ds ∧ d ≠ 0 := by
  cases hds : (shortestDigits rank).1 with
  | nil =>
    have hpos := decimal_pos hk
    rw [decimal_of_digits hk, hds] at hpos
    simp at hpos
  | cons d ds =>
    rw [shortestDigits, if_neg (by omega)] at hds
    exact ⟨d, ds, rfl, Decimal.significant_head hds⟩

end Double

namespace Literal

variable {l : Literal}

/-! ## Safe literals -/

theorem decimal_of_isInteger (h : l.isInteger = true) : l.decimal = ⟨l.negative, l.whole, 0⟩ := by
  simp only [isInteger, Bool.and_eq_true, List.isEmpty_iff, Option.isNone_iff_eq_none] at h
  simp [decimal, digits, h.1, h.2, Decimal.ofDigits_digitsOf]

theorem written_of_integer (h : l.isInteger = true) (hl : l.whole ≤ safeLimit) :
    l.toDouble.isFinite = true ∧ l.toDouble.written = l.value := by
  have hwhole : l.whole < 2 ^ 53 := Nat.lt_of_le_of_lt hl (by decide)
  obtain ⟨rank, hrank, hunits⟩ := Decimal.toDouble_nat hwhole l.negative
  rw [toDouble, value, decimal_of_isInteger h, hrank]
  refine ⟨rfl, ?_⟩
  rw [Double.written, Decimal.value, Decimal.magnitude, zpow_zero, mul_one]
  split
  · rename_i h0
    have hpos := Double.stepsPerOne_pos
    rw [h0, Double.units_zero, eq_comm, Nat.mul_eq_zero] at hunits
    rw [show l.whole = 0 by omega, Nat.cast_zero, mul_zero]
  · rename_i h0
    rw [Double.decimal_nat hwhole (Nat.pos_of_ne_zero h0) hunits]

theorem written_of_digits {negative : Bool} {rank : Fin finiteRanks}
    (h : l.toDouble = .finite negative rank)
    (hds : Decimal.significant l.digits = (Double.shortestDigits rank).1) :
    l.toDouble.written = l.value := by
  obtain ⟨j, hj⟩ := Decimal.ofDigits_significant l.digits
  rw [hds] at hj
  rw [h, Double.written, value, Decimal.value, ← Decimal.toDouble_negative h]
  split
  · rename_i h0
    rw [h0, show (Double.shortestDigits 0).1 = [] from rfl, Decimal.ofDigits_nil, Nat.zero_mul] at hj
    simp [Decimal.magnitude, decimal, hj]
  · rename_i h0
    have hk := Nat.pos_of_ne_zero h0
    have hnear := Decimal.toDouble_near h hk
    have hnear' := Double.decimal_near hk
    have hpos := Double.decimal_pos hk
    have hone : (0 : ℚ) < Double.stepsPerOne := by exact_mod_cast Double.stepsPerOne_pos
    have hmagnitude : l.decimal.magnitude =
        Decimal.ofDigits (Double.shortestDigits rank).1 * 10 ^ (j + l.decimal.exponent) := by
      rw [Decimal.magnitude, show l.decimal.coefficient = Decimal.ofDigits l.digits from rfl, hj,
        zpow_add₀ (by norm_num), zpow_natCast]
      push_cast
      ring
    rw [Double.decimal_of_digits hk] at hnear' hpos ⊢
    rw [hmagnitude] at hnear ⊢
    have hdigits : (0 : ℚ) < Decimal.ofDigits (Double.shortestDigits rank).1 :=
      pos_of_mul_pos_left hpos (by positivity)
    generalize (j : Int) + l.decimal.exponent = e at hnear ⊢
    generalize (Double.shortestDigits rank).2 - ((Double.shortestDigits rank).1.length : Int) = e'
      at hnear' hpos ⊢
    -- the same digits twice, both within half of the double: there is no room for another exponent
    have hexponent : e = e' := Decimal.exponent_unique hdigits
      (le_of_mul_le_mul_right (by linarith [hnear'.2, hnear.1]) hone)
      (le_of_mul_le_mul_right (by linarith [hnear.2, hnear'.1]) hone)
    rw [hexponent]

/-- **A safe literal denotes what its nearest double is written as**, and that double is finite. -/
theorem written_of_safe (h : l.isSafe = true) :
    l.toDouble.isFinite = true ∧ l.toDouble.written = l.value := by
  unfold isSafe at h
  split at h
  · rename_i hi
    exact written_of_integer hi (by simpa using h)
  · split at h
    · rename_i negative rank hd
      simp only [Bool.and_eq_true, beq_iff_eq] at h
      exact ⟨by rw [hd]; rfl, written_of_digits hd h.2⟩
    · cases h

end Literal

end Lifecycle
