import Lifecycle.Proofs.Number.ReadBack

/- Whole numbers: as doubles, and as literals.

   A whole number below 2^53 is a double (`ofNat_finite`), and every literal that denotes it is safe
   and has that double as its nearest one (`isSafe_of_value`, `toDouble_of_value`): two spellings of
   one number have the same significant digits (`significant_unique`). A larger one is never the value
   of a safe literal (`value_le_of_safe`). So a safe literal denotes a natural number exactly if its
   double is that number (`value_iff_of_safe`). -/
namespace Lifecycle

namespace Decimal

variable {d : Decimal} {a b : List (Fin 10)}

/-! ## Spellings of one number -/

theorem significant_eq_nil (h : ofDigits a = 0) : significant a = [] := by
  cases hs : significant a with
  | nil => rfl
  | cons d ds =>
    obtain ⟨j, hj⟩ := ofDigits_significant a
    have hge := ofDigits_ge (significant_head hs) ds
    have hpos : 0 < ofDigits (significant a) * 10 ^ j := by
      rw [hs]
      exact Nat.mul_pos (Nat.lt_of_lt_of_le (by positivity) hge) (by positivity)
    omega

theorem ofDigits_eq_zero (h : significant a = []) : ofDigits a = 0 := by
  obtain ⟨j, hj⟩ := ofDigits_significant a
  rw [hj, h, ofDigits_nil, Nat.zero_mul]

theorem significant_of_zeros {k : Nat} (hb : significant b ≠ [])
    (h : ofDigits (significant a) = ofDigits (significant b) * 10 ^ k) : significant a = significant b := by
  obtain ⟨d, ds, hds⟩ := List.exists_cons_of_ne_nil hb
  have hpos := ofDigits_ge (significant_head hds) ds
  cases ha : significant a with
  | nil =>
    rw [ha, ofDigits_nil, hds] at h
    have := Nat.mul_pos (Nat.lt_of_lt_of_le (show 0 < 10 ^ ds.length by positivity) hpos)
      (show 0 < 10 ^ k by positivity)
    omega
  | cons e es =>
    have hspelled : e :: es = (d :: ds) ++ List.replicate k 0 := by
      rw [← digitsOf_ofDigits (significant_head ha) es, ← ha, h, ← ofDigits_append_zeros, hds,
        List.cons_append, digitsOf_ofDigits (significant_head hds)]
    -- a zero at the end would not be significant
    cases k with
    | zero => rw [hspelled, hds, List.replicate_zero, List.append_nil]
    | succ k =>
      have hlast : (significant a).reverse = 0 :: ((d :: ds) ++ List.replicate k 0).reverse := by
        rw [ha, hspelled, List.replicate_succ', ← List.append_assoc, List.reverse_append]
        rfl
      exact absurd rfl (significant_last hlast)

/-- **Two spellings of one number have the same significant digits.** -/
theorem significant_unique {i j : Int} (h : (ofDigits a : ℚ) * 10 ^ i = ofDigits b * 10 ^ j) :
    significant a = significant b := by
  have hten (e : Int) : (0 : ℚ) < 10 ^ e := by positivity
  by_cases hb : significant b = []
  · have hzero : (ofDigits a : ℚ) = 0 := by
      rw [ofDigits_eq_zero hb, Nat.cast_zero, zero_mul] at h
      exact (mul_eq_zero.1 h).resolve_right (hten i).ne'
    rw [hb, significant_eq_nil (by exact_mod_cast hzero)]
  by_cases ha : significant a = []
  · have hzero : (ofDigits b : ℚ) = 0 := by
      rw [ofDigits_eq_zero ha, Nat.cast_zero, zero_mul, eq_comm] at h
      exact (mul_eq_zero.1 h).resolve_right (hten j).ne'
    exact absurd (significant_eq_nil (by exact_mod_cast hzero)) hb
  obtain ⟨m, hm⟩ := ofDigits_significant a
  obtain ⟨n, hn⟩ := ofDigits_significant b
  rw [hm, hn] at h
  push_cast at h
  rw [mul_assoc, mul_assoc, ← zpow_natCast, ← zpow_natCast, ← zpow_add₀ (by norm_num),
    ← zpow_add₀ (by norm_num)] at h
  -- the smaller power of ten is taken off both sides
  have shift {x y : Nat} {e f : Int} (hef : e ≤ f) (hxy : (x : ℚ) * 10 ^ e = y * 10 ^ f) :
      x = y * 10 ^ (f - e).toNat := by
    have hsplit : (10 : ℚ) ^ f = 10 ^ (f - e).toNat * 10 ^ e := by
      rw [← zpow_natCast, ← zpow_add₀ (by norm_num)]
      congr 1
      omega
    rw [hsplit, ← mul_assoc] at hxy
    exact_mod_cast mul_right_cancel₀ (hten e).ne' hxy
  rcases le_total ((m : Int) + i) (n + j) with hle | hle
  · exact significant_of_zeros hb (shift hle h)
  · exact (significant_of_zeros ha (shift hle h.symm)).symm

/-! ## The nearest double of a number from one on -/

/-- A number from one on is too large for a double, or it rounds to its nearest one. -/
theorem toDouble_rounds (h : 1 ≤ d.magnitude) : d.toDouble = .infinite d.negative ∨
    ∃ rank : Fin finiteRanks, d.toDouble = .finite d.negative rank ∧
      Double.Rounds rank (d.magnitude * Double.stepsPerOne) := by
  have hc : d.coefficient ≠ 0 := by
    intro hzero
    rw [magnitude, hzero, Nat.cast_zero, zero_mul] at h
    norm_num at h
  have hlow : (0 : Int) < digitCount d.coefficient + d.exponent := by
    have hbelow : (10 : ℚ) ^ (0 : Int) < 10 ^ ((digitCount d.coefficient : Int) + d.exponent) := by
      rw [zpow_zero]
      exact h.trans_lt (magnitude_bounds hc).2
    exact (zpow_lt_zpow_iff_right₀ (by norm_num)).1 hbelow
  by_cases hhigh : (digitCount d.coefficient : Int) + d.exponent ≤ 330
  · obtain ⟨num, den, hden, hvalue, hsteps⟩ := toDouble_of_range hc (by omega) hhigh
    rw [hsteps, Double.ofSteps, Double.ofRank, hvalue]
    split
    · rename_i hrank
      exact .inr ⟨⟨_, hrank⟩, rfl, Double.rounds_nearestRank num hden⟩
    · exact .inl rfl
  · left
    unfold toDouble
    simp only
    rw [if_neg hc, if_neg (by omega), if_pos (by omega)]

end Decimal

/-! ## Natural numbers as doubles -/

namespace Double

variable {x : Double} {n : Nat} {negative : Bool} {rank : Fin finiteRanks}

theorem ofNat_finite (hn : n < 2 ^ 53) :
    ∃ rank : Fin finiteRanks, ofNat n = .finite false rank ∧ units rank = n * stepsPerOne := by
  have hunits := units_nearestRank_nat hn
  have hfinite : nearestRank (n * stepsPerOne) 1 < finiteRanks := by
    apply rank_lt_of_units_lt
    rw [hunits]
    exact Nat.mul_lt_mul_of_pos_right hn stepsPerOne_pos
  exact ⟨⟨_, hfinite⟩, by rw [ofNat, ofSteps, ofRank, dif_pos hfinite], hunits⟩

/-- A double that is a natural number lies at that number, and is negative only as a zero. -/
theorem units_of_toInt? (h : (Double.finite negative rank).toInt? = some (n : Int)) :
    units rank = n * stepsPerOne ∧ (negative = true → n = 0) := by
  have hpos : (0 : Int) < stepsPerOne := by exact_mod_cast stepsPerOne_pos
  obtain ⟨s, hs⟩ : ∃ s : Int, (if negative then -(units rank.val : Int) else units rank.val) = s := ⟨_, rfl⟩
  rw [toInt?, steps?, hs] at h
  simp only at h
  split at h
  · rename_i hwhole
    have hsteps := Int.ediv_mul_cancel (Int.dvd_of_emod_eq_zero hwhole)
    rw [Option.some.inj h, ← hs] at hsteps
    cases negative with
    | false =>
      rw [if_neg Bool.false_ne_true] at hsteps
      exact ⟨by exact_mod_cast hsteps.symm, fun hsign => absurd hsign Bool.false_ne_true⟩
    | true =>
      -- the negative of a distance is no more than zero
      rw [if_pos rfl] at hsteps
      have hn : n = 0 := by
        by_contra hne
        have := Int.mul_pos (show (0 : Int) < n by omega) hpos
        omega
      rw [hn] at hsteps ⊢
      exact ⟨by omega, fun _ => rfl⟩
  · cases h

theorem rank_pos_of_units (hpos : 0 < n) (hunits : units rank = n * stepsPerOne) : 0 < rank.val := by
  apply Nat.pos_of_ne_zero
  intro hzero
  rw [hzero, units_zero] at hunits
  have := Nat.mul_pos hpos stepsPerOne_pos
  omega

/-- The digits a whole number below 2^53 is written in are its own, short of the zeros at the end. -/
theorem shortestDigits_nat (hn : n < 2 ^ 53) (hk : 0 < rank.val) (hunits : units rank = n * stepsPerOne) :
    (shortestDigits rank).1 = Decimal.significant (Decimal.digitsOf n) := by
  have hdecimal := decimal_nat hn hk hunits
  rw [decimal, ← Decimal.ofDigits_digitsOf (shortest rank).1] at hdecimal
  have hown : (Decimal.ofDigits (Decimal.digitsOf n) : ℚ) * 10 ^ (0 : Int) = n := by
    rw [Decimal.ofDigits_digitsOf, zpow_zero, mul_one]
  rw [shortestDigits, if_neg hk.ne']
  exact Decimal.significant_unique (hdecimal.trans hown.symm)

theorem toText_ofNat (hn : n < 2 ^ 53) : (ofNat n).toText = Text.ofNat n := by
  rcases Nat.eq_zero_or_pos n with rfl | hpos
  · decide +kernel
  obtain ⟨rank, hrank, hunits⟩ := ofNat_finite hn
  have hk := rank_pos_of_units hpos hunits
  obtain ⟨j, hj⟩ := Decimal.digitsOf_significant hpos
  rw [← shortestDigits_nat hn hk hunits] at hj
  obtain ⟨d, ds, hds, -⟩ := shortestDigits_cons hk
  have hlength : (Decimal.digitsOf n).length ≤ 21 := by
    rw [← Decimal.digitCount_eq]
    by_contra hlong
    have hge := Decimal.pow_digitCount_le hpos
    have := Nat.pow_le_pow_right (show 0 < 10 by decide) (show 21 ≤ Decimal.digitCount n - 1 by omega)
    omega
  have hposition : (shortestDigits rank).2 = (shortestDigits rank).1.length + (j : Int) := by
    have hvalue := (decimal_of_digits hk).symm.trans (decimal_nat hn hk hunits)
    have hspelled : n = Decimal.ofDigits (shortestDigits rank).1 * 10 ^ j := by
      rw [← Decimal.ofDigits_append_zeros, ← hj, Decimal.ofDigits_digitsOf]
    have hnonzero : (Decimal.ofDigits (shortestDigits rank).1 : ℚ) ≠ 0 := by
      intro hzero
      rw [Nat.cast_eq_zero] at hzero
      rw [hzero, Nat.zero_mul] at hspelled
      omega
    have hspelled' : (n : ℚ) = Decimal.ofDigits (shortestDigits rank).1 * 10 ^ (j : Int) := by
      rw [zpow_natCast]
      exact_mod_cast hspelled
    have := zpow_right_injective₀ (by norm_num) (by norm_num)
      (mul_left_cancel₀ hnonzero (hvalue.trans hspelled'))
    omega
  rw [hj, List.length_append, List.length_replicate] at hlength
  have hwhole : ((shortestDigits rank).1.length : Int) ≤ (shortestDigits rank).2 ∧
      (shortestDigits rank).2 ≤ 21 := by omega
  have hempty : (shortestDigits rank).1.isEmpty = false := by rw [hds]; rfl
  have hzeros : ((shortestDigits rank).2 - (shortestDigits rank).1.length).toNat = j := by omega
  rw [hrank, toText]
  simp only [Bool.false_and, layout, hempty, Bool.false_eq_true, if_false]
  rw [if_pos hwhole, hzeros, ofNat_eq_digitText, hj, digitText_append, digitText_zeros]

theorem toInt?_ofNat (hn : n < 2 ^ 53) : (ofNat n).toInt? = some (n : Int) := by
  obtain ⟨rank, hrank, hunits⟩ := ofNat_finite hn
  rw [hrank, toInt?_of_units hunits]
  rfl

theorem steps?_of_toInt? {a : Int} (h : x.toInt? = some a) : x.steps? = some (a * stepsPerOne) := by
  rw [toInt?] at h
  split at h
  · rename_i s hs
    split at h
    · rename_i hwhole
      rw [hs, ← Option.some.inj h, Int.ediv_mul_cancel (Int.dvd_of_emod_eq_zero hwhole)]
    · cases h
  · cases h

theorem le_of_steps? {y : Double} {a b : Int} (hx : x.steps? = some a) (hy : y.steps? = some b) :
    x.le y = decide (a ≤ b) := by
  cases x with
  | finite negative rank =>
    cases y with
    | finite negative' rank' => simp only [le, hx, hy]
    | _ => cases hy
  | _ => cases hx

theorem lt_of_toInt? {y : Double} {a b : Int} (hx : x.toInt? = some a) (hy : y.toInt? = some b) :
    x.lt y = decide (a < b) := by
  have hpos : (0 : Int) < stepsPerOne := by exact_mod_cast stepsPerOne_pos
  rw [lt, le_of_steps? (steps?_of_toInt? hx) (steps?_of_toInt? hy),
    le_of_steps? (steps?_of_toInt? hy) (steps?_of_toInt? hx), ← decide_not, ← Bool.decide_and,
    decide_eq_decide, not_le, Int.mul_lt_mul_right hpos]
  exact ⟨And.right, fun h => ⟨mul_le_mul_of_nonneg_right h.le hpos.le, h⟩⟩

theorem sub_whole {y : Double} {k : Nat} (hx : x.toInt? = some (n : Int)) (hy : y.toInt? = some (k : Int))
    (hk : k ≤ n) : x.sub y = ofNat (n - k) := by
  have hsteps := steps?_of_toInt? hx
  have hsteps' := steps?_of_toInt? hy
  have hdiff : (n : Int) * stepsPerOne - k * stepsPerOne = ((n - k) * stepsPerOne : Nat) := by
    rw [← Int.sub_mul, ← Int.ofNat_sub hk]
    exact (Int.natCast_mul _ _).symm
  cases x with
  | finite negative rank =>
    cases y with
    | finite negative' rank' =>
      simp only [sub, hsteps, hsteps', hdiff, Int.natAbs_natCast]
      rw [decide_eq_false (by omega)]
      rfl
    | _ => cases hsteps'
  | _ => cases hsteps

theorem toInt?_sub {y : Double} {k : Nat} (hx : x.toInt? = some (n : Int)) (hy : y.toInt? = some (k : Int))
    (hk : k ≤ n) (hn : n < 2 ^ 53) : (x.sub y).toInt? = some ((n - k : Nat) : Int) := by
  rw [sub_whole hx hy hk, toInt?_ofNat (by omega)]

end Double

/-! ## Natural numbers as literals -/

namespace Literal

variable {l : Literal} {n : Nat}

theorem safeLimit_eq : safeLimit + 1 = 2 ^ 53 := by decide

/-- A literal of a natural number has it as its magnitude, and is negative only as a zero. -/
theorem magnitude_of_value (h : l.value = n) :
    l.decimal.magnitude = n ∧ (l.negative = true → n = 0) := by
  have hpos : 0 ≤ l.decimal.magnitude := by
    rw [Decimal.magnitude]
    positivity
  have hn : (0 : ℚ) ≤ n := n.cast_nonneg
  rw [value, Decimal.value, show l.decimal.negative = l.negative from rfl, signOf] at h
  split at h
  · have hzero : (n : ℚ) = 0 := by linarith
    exact ⟨by linarith, fun _ => by exact_mod_cast hzero⟩
  · rename_i hsign
    exact ⟨by linarith, fun hnegative => absurd hnegative hsign⟩

theorem toDouble_of_value (h : l.value = n) (hn : n < 2 ^ 53) :
    ∃ rank : Fin finiteRanks, l.toDouble = .finite l.negative rank ∧
      Double.units rank = n * Double.stepsPerOne := by
  obtain ⟨hmagnitude, -⟩ := magnitude_of_value h
  rcases Nat.eq_zero_or_pos n with rfl | hpos
  · have hzero : l.decimal.coefficient = 0 := by
      rw [Decimal.magnitude, Nat.cast_zero] at hmagnitude
      have := (mul_eq_zero.1 hmagnitude).resolve_right (by positivity)
      exact_mod_cast this
    refine ⟨⟨0, by decide⟩, ?_, by rw [Nat.zero_mul]; exact Double.units_zero⟩
    rw [toDouble, Decimal.toDouble, if_pos hzero]
    rfl
  · obtain ⟨rank, -, hunits⟩ := Double.ofNat_finite hn
    have hk := Double.rank_pos_of_units hpos hunits
    have hrounds : Double.Rounds rank (l.decimal.magnitude * Double.stepsPerOne) := by
      have hlow := Double.lowerEnd_le_halves rank
      rw [Double.halves, hunits] at hlow
      have hlower := Double.lowerEnd_eq hk
      have hupper := Double.upperEnd_eq rank
      have hspace := Double.spacing_pos rank
      have hspace' := Double.spacing_pos (rank - 1)
      rw [Double.halves, hunits] at hlower hupper
      have hcast : (n : ℚ) * Double.stepsPerOne = (n * Double.stepsPerOne : Nat) := by rw [Nat.cast_mul]
      rw [hmagnitude, hcast, Double.Rounds]
      generalize n * Double.stepsPerOne = s at *
      refine ⟨⟨?_, ?_⟩, fun _ => ⟨?_, ?_⟩⟩ <;> norm_cast <;> omega
    exact ⟨rank, Decimal.toDouble_of_rounds hk hrounds, hunits⟩

/-- **Every literal of a natural number up to 2^53 - 1 is safe**, however it is written. -/
theorem isSafe_of_value (h : l.value = n) (hn : n ≤ safeLimit) : l.isSafe = true := by
  have hlimit := safeLimit_eq
  have hbelow : n < 2 ^ 53 := by omega
  obtain ⟨hmagnitude, -⟩ := magnitude_of_value h
  rw [isSafe]
  split
  · rename_i hi
    rw [decimal_of_isInteger hi, Decimal.magnitude, zpow_zero, mul_one] at hmagnitude
    have hwhole : l.whole = n := by exact_mod_cast hmagnitude
    rw [hwhole, decide_eq_true hn]
  · obtain ⟨rank, hrank, hunits⟩ := toDouble_of_value h hbelow
    have hsmall : (Double.finite l.negative rank).isLarge = false := by
      rw [← Bool.not_eq_true, Double.isLarge_iff hunits]
      omega
    have hdigits : Decimal.significant l.digits = (Double.shortestDigits rank).1 := by
      rcases Nat.eq_zero_or_pos rank.val with hzero | hk
      · have hn0 : n = 0 := by
          rw [hzero, Double.units_zero, eq_comm, Nat.mul_eq_zero] at hunits
          exact hunits.resolve_right Double.stepsPerOne_pos.ne'
        rw [hn0, Nat.cast_zero, Decimal.magnitude] at hmagnitude
        have hcoefficient := (mul_eq_zero.1 hmagnitude).resolve_right (by positivity)
        rw [hzero]
        exact Decimal.significant_eq_nil (by exact_mod_cast hcoefficient)
      · -- the double is written as the number too, in other digits perhaps
        have hown : (Decimal.ofDigits (Decimal.digitsOf n) : ℚ) * 10 ^ (0 : Int) = n := by
          rw [Decimal.ofDigits_digitsOf, zpow_zero, mul_one]
        rw [Decimal.magnitude] at hmagnitude
        rw [Double.shortestDigits_nat hbelow hk hunits]
        exact Decimal.significant_unique (hmagnitude.trans hown.symm)
    rw [hrank]
    simp only [Bool.and_eq_true, Bool.not_eq_true', beq_iff_eq]
    exact ⟨hsmall, hdigits⟩

/-- A safe literal denotes no natural number beyond 2^53 - 1: that would be a double beyond it. -/
theorem value_le_of_safe (h : l.isSafe = true) (hvalue : l.value = n) : n ≤ safeLimit := by
  have hlimit := safeLimit_eq
  have hsmall := Double.isLarge_of_isSafe h
  obtain ⟨hfinite, -⟩ := written_of_safe h
  obtain ⟨hmagnitude, -⟩ := magnitude_of_value hvalue
  by_contra hbeyond
  have hge : 2 ^ 53 ≤ n := by omega
  have hone : (2 ^ 53 : ℚ) ≤ n := by exact_mod_cast hge
  obtain hinf | ⟨rank, hrank, hrounds⟩ := Decimal.toDouble_rounds (d := l.decimal) (by linarith)
  · rw [toDouble, hinf] at hfinite
    cases hfinite
  · rw [hmagnitude] at hrounds
    have hunits := Double.units_ge_of_rounds hrounds (by exact_mod_cast Nat.mul_le_mul_right _ hge)
    obtain ⟨m, hm, hwhole⟩ := Double.whole_of_units_ge hunits
    rw [toDouble, hrank, (Double.isLarge_iff hwhole).2 hm] at hsmall
    cases hsmall

theorem toInt?_of_value (h : l.value = n) (hn : n < 2 ^ 53) : l.toDouble.toInt? = some (n : Int) := by
  obtain ⟨-, hsign⟩ := magnitude_of_value h
  obtain ⟨rank, hrank, hunits⟩ := toDouble_of_value h hn
  rw [hrank, Double.toInt?_of_units hunits]
  cases hnegative : l.negative with
  | false => rfl
  | true =>
    rw [hsign hnegative]
    rfl

/-- A safe literal is written as its double is, so it denotes what the double is worth. -/
theorem value_of_toInt? (h : l.isSafe = true) (hint : l.toDouble.toInt? = some (n : Int)) : l.value = n := by
  have hlimit := safeLimit_eq
  have hsmall := Double.isLarge_of_isSafe h
  obtain ⟨-, hwritten⟩ := written_of_safe h
  cases hx : l.toDouble with
  | nan => rw [hx] at hint; cases hint
  | infinite negative => rw [hx] at hint; cases hint
  | finite negative rank =>
    rw [hx] at hint hsmall hwritten
    obtain ⟨hunits, hsign⟩ := Double.units_of_toInt? hint
    rw [← Bool.not_eq_true, Double.isLarge_iff hunits] at hsmall
    rw [← hwritten, Double.written]
    split
    · rename_i hzero
      rw [hzero, Double.units_zero, eq_comm, Nat.mul_eq_zero] at hunits
      rw [hunits.resolve_right Double.stepsPerOne_pos.ne', Nat.cast_zero]
    · rename_i hk
      have hpositive : negative = false := by
        cases negative with
        | false => rfl
        | true =>
          rw [hsign rfl, Nat.zero_mul] at hunits
          exact absurd hunits (Double.units_pos (Nat.pos_of_ne_zero hk)).ne'
      rw [hpositive, Double.decimal_nat (by omega) (Nat.pos_of_ne_zero hk) hunits]
      exact one_mul _

/-- **A safe literal denotes a natural number exactly if its nearest double is that number.** -/
theorem value_iff_of_safe (h : l.isSafe = true) :
    l.value = n ↔ l.toDouble.toInt? = some (n : Int) := by
  have hlimit := safeLimit_eq
  constructor
  · intro hvalue
    have hle := value_le_of_safe h hvalue
    exact toInt?_of_value hvalue (by omega)
  · exact value_of_toInt? h

end Literal

end Lifecycle
