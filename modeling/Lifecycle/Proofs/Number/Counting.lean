import Lifecycle.Proofs.Number.Whole

/- Counting by ones in doubles.

   The sum of two whole numbers is the double nearest to the exact one (`add_whole`), so
   a count that starts at zero and grows by one is exact up to 2^53 (`tally_exact`). There
   it stays (`tally_stuck`): 2^53 + 1 lies halfway between two doubles, and the tie goes
   back to the even one. -/
namespace Lifecycle.Double

variable {x y : Double} {n k : Nat}

/-- Zero with one added `n` times. -/
def tally : Nat → Double
  | 0 => .zero
  | n + 1 => (tally n).add .one

theorem tally_zero : tally 0 = zero := rfl

theorem tally_succ (n : Nat) : tally (n + 1) = (tally n).add .one := rfl

/-! ## Sums and order of whole numbers -/

theorem finite_of_toInt? {a : Int} (h : x.toInt? = some a) :
    ∃ negative rank, x = .finite negative rank := by
  cases x with
  | finite negative rank => exact ⟨negative, rank, rfl⟩
  | _ => cases h

theorem add_whole (hx : x.toInt? = some (n : Int)) (hy : y.toInt? = some (k : Int)) :
    x.add y = ofNat (n + k) := by
  have hsteps := steps?_of_toInt? hx
  have hsteps' := steps?_of_toInt? hy
  have hsum : (n : Int) * stepsPerOne + k * stepsPerOne = ((n + k) * stepsPerOne : Nat) := by
    rw [← Int.add_mul, ← Int.natCast_add]
    exact (Int.natCast_mul _ _).symm
  obtain ⟨negative, rank, rfl⟩ := finite_of_toInt? hx
  obtain ⟨negative', rank', rfl⟩ := finite_of_toInt? hy
  simp only [add, hsteps, hsteps', hsum, Int.natAbs_natCast]
  rw [decide_eq_false (by omega)]
  rfl

theorem le_whole (hx : x.toInt? = some (n : Int)) (hy : y.toInt? = some (k : Int)) :
    x.le y = decide (n ≤ k) := by
  have hpos : (0 : Int) < stepsPerOne := by exact_mod_cast stepsPerOne_pos
  rw [le_of_steps? (steps?_of_toInt? hx) (steps?_of_toInt? hy), decide_eq_decide,
    Int.mul_le_mul_right hpos]
  exact Int.ofNat_le

theorem le_infinite {a : Int} (hx : x.toInt? = some a) : x.le (.infinite false) = true := by
  obtain ⟨negative, rank, rfl⟩ := finite_of_toInt? hx
  rfl

/-- What a whole number is at most is infinite, or no fewer steps away from zero. -/
theorem le_cases (h : x.le y = true) (hx : x.toInt? = some (n : Int)) :
    y = .infinite false ∨ ∃ s, y.steps? = some s ∧ (n : Int) * stepsPerOne ≤ s := by
  have hsteps := steps?_of_toInt? hx
  obtain ⟨negative, rank, rfl⟩ := finite_of_toInt? hx
  cases y with
  | nan => cases h
  | infinite negative' =>
    cases negative' with
    | true => cases h
    | false => exact .inl rfl
  | finite negative' rank' =>
    obtain ⟨s, hs⟩ : ∃ s, (Double.finite negative' rank').steps? = some s := ⟨_, rfl⟩
    rw [le_of_steps? hsteps hs, decide_eq_true_eq] at h
    exact .inr ⟨s, hs, h⟩

theorem whole_steps_le (h : n ≤ k) : (n : Int) * stepsPerOne ≤ k * stepsPerOne :=
  Int.mul_le_mul_of_nonneg_right (by exact_mod_cast h) (Int.natCast_nonneg _)

theorem le_smaller {z : Double} (h : y.le z = true) (hx : x.toInt? = some (n : Int))
    (hy : y.toInt? = some (k : Int)) (hnk : n ≤ k) : x.le z = true := by
  obtain rfl | ⟨s, hs, hle⟩ := le_cases h hy
  · exact le_infinite hx
  · rw [le_of_steps? (steps?_of_toInt? hx) hs, decide_eq_true_eq]
    exact (whole_steps_le hnk).trans hle

theorem le_larger {z : Double} (h : z.le x = true) (hx : x.toInt? = some (n : Int))
    (hy : y.toInt? = some (k : Int)) (hnk : n ≤ k) : z.le y = true := by
  have hsteps := steps?_of_toInt? hx
  have hsteps' := steps?_of_toInt? hy
  cases z with
  | nan => cases x <;> cases h
  | infinite negative =>
    obtain ⟨negative', rank, rfl⟩ := finite_of_toInt? hx
    obtain ⟨negative'', rank', rfl⟩ := finite_of_toInt? hy
    cases negative with
    | true => rfl
    | false => cases h
  | finite negative rank =>
    obtain ⟨s, hs⟩ : ∃ s, (Double.finite negative rank).steps? = some s := ⟨_, rfl⟩
    rw [le_of_steps? hs hsteps, decide_eq_true_eq] at h
    rw [le_of_steps? hs hsteps', decide_eq_true_eq]
    exact h.trans (whole_steps_le hnk)

/-! ## The count -/

theorem toInt?_one : one.toInt? = some ((1 : Nat) : Int) := toInt?_ofNat (by decide)

theorem toInt?_ofNat_le (hn : n ≤ 2 ^ 53) : (ofNat n).toInt? = some (n : Int) := by
  rcases Nat.lt_or_eq_of_le hn with hlt | rfl
  · exact toInt?_ofNat hlt
  · decide +kernel

theorem tally_exact (hn : n ≤ 2 ^ 53) : tally n = ofNat n := by
  induction n with
  | zero => decide +kernel
  | succ n ih => rw [tally_succ, ih (by omega), add_whole (toInt?_ofNat (by omega)) toInt?_one]

theorem tally_stuck (hn : 2 ^ 53 ≤ n) : tally n = ofNat (2 ^ 53) := by
  induction n, hn using Nat.le_induction with
  | base => exact tally_exact (Nat.le_refl _)
  | succ n _ ih =>
    rw [tally_succ, ih]
    decide +kernel

theorem toInt?_tally (hn : n ≤ 2 ^ 53) : (tally n).toInt? = some (n : Int) := by
  rw [tally_exact hn, toInt?_ofNat_le hn]

theorem tally_sub_one (hn : n < 2 ^ 53) : (tally (n + 1)).sub one = tally n := by
  rw [sub_whole (toInt?_tally hn) toInt?_one (Nat.succ_pos n), Nat.succ_sub_one, tally_exact hn.le]

/-- One less than a count is the number counted before, or 2^53 - 1. -/
theorem toInt?_tally_sub_one (n : Nat) :
    ∃ v : Nat, ((tally (n + 1)).sub one).toInt? = some (v : Int) ∧ v < 2 ^ 53 ∧
      (v = n ∨ v = 2 ^ 53 - 1 ∧ 2 ^ 53 ≤ n) := by
  rcases Nat.lt_or_ge n (2 ^ 53) with early | late
  · exact ⟨n, by rw [tally_sub_one early, toInt?_tally early.le], early, .inl rfl⟩
  · refine ⟨2 ^ 53 - 1, ?_, by omega, .inr ⟨rfl, late⟩⟩
    have stuck : tally (n + 1) = tally (2 ^ 53 - 1 + 1) := by
      rw [tally_stuck (by omega), tally_stuck (by omega)]
    rw [stuck, tally_sub_one (by omega), toInt?_tally (by omega)]

/-- A count is compared with a whole number below 2^53 as if it were exact. -/
theorem tally_compares (hx : x.toInt? = some (k : Int)) (hk : k < 2 ^ 53) (n : Nat) :
    x.le (tally n) = decide (k ≤ n) ∧ (tally n).le x = decide (n ≤ k) := by
  rcases Nat.le_total n (2 ^ 53) with early | late
  · exact ⟨le_whole hx (toInt?_tally early), le_whole (toInt?_tally early) hx⟩
  · have hlimit : (tally n).toInt? = some ((2 ^ 53 : Nat) : Int) := by
      rw [tally_stuck late, toInt?_ofNat_le (Nat.le_refl _)]
    rw [le_whole hx hlimit, le_whole hlimit hx, decide_eq_decide, decide_eq_decide]
    omega

theorem tally_same_one (n : Nat) : (tally n).same one = decide (n = 1) := by
  obtain ⟨hle, hge⟩ := tally_compares toInt?_one (by decide) n
  rw [same, hle, hge, ← Bool.decide_and, decide_eq_decide]
  omega

theorem toText_tally (hn : n < 2 ^ 53) : (tally n).toText = Text.ofNat n := by
  rw [tally_exact hn.le, toText_ofNat hn]

end Lifecycle.Double
