import Lifecycle.Proofs.Number.Counting
import Lifecycle.Run.State

/- Budgets as numbers of calls.

   A budget adds calls to the first one, either any number of them or at most a
   natural number `k`. A run counts its calls in doubles, and the count stays at 2^53
   (`Double.tally_stuck`): a bound below 2^53 - 1 allows exactly the calls up to number
   `k + 1`, and a greater one allows them all (`Adds.enforces`). -/
namespace Lifecycle

namespace Budget

/-- The calls that a budget adds to the first one: any number, or at most a natural number. -/
inductive Adds : Budget → Option Nat → Prop where
  | unbounded : Adds .unbounded none
  | bounded {x : Double} {k : Nat} (h : x.toInt? = some (k : Int)) : Adds (.bounded x) (some k)

/-- The limit that a count by ones can pass. -/
def enforced (limit : Option Nat) : Option Nat := limit.filter (· + 1 < 2 ^ 53)

/-- The call after `n` others, as a run counts it, is allowed exactly if `n` calls may be added. -/
def Enforces (b : Budget) (limit : Option Nat) : Prop :=
  ∀ n, b.allows (.tally (n + 1)) = true ↔ ∀ k ∈ limit, n ≤ k

variable {b : Budget} {limit : Option Nat} {n k : Nat}

theorem mem_enforced : k ∈ enforced limit ↔ k ∈ limit ∧ k + 1 < 2 ^ 53 := by
  simp only [enforced, Option.mem_def, Option.filter_eq_some_iff, decide_eq_true_eq]

theorem enforced_of_lt (hk : k + 1 < 2 ^ 53) : enforced (some k) = some k :=
  mem_enforced.2 ⟨rfl, hk⟩

theorem Adds.enforces (hb : b.Adds limit) : b.Enforces (enforced limit) := by
  intro n
  cases hb with
  | unbounded => simp [allows, enforced]
  | @bounded x k h =>
    have members : (∀ k' ∈ enforced (some k), n ≤ k') ↔ (k + 1 < 2 ^ 53 → n ≤ k) := by
      simp only [mem_enforced, Option.mem_some_iff, and_imp, forall_eq']
    -- the number of added calls that is compared with the bound is `n`, or 2^53 - 1 from there on
    obtain ⟨v, hv, hlt, hcase⟩ := Double.toInt?_tally_sub_one n
    have first := (Double.tally_compares Double.toInt?_one (by decide) (n + 1)).2
    rw [members, allows, first, Double.le_whole hv h, Bool.or_eq_true, decide_eq_true_eq,
      decide_eq_true_eq]
    omega

/-- A bound that a count by ones cannot pass allows every call. -/
theorem Adds.unending (hb : b.Adds (some k)) (hk : 2 ^ 53 ≤ k + 1) (n : Nat) :
    b.allows (.tally (n + 1)) = true := by
  rw [hb.enforces n]
  intro k' hk'
  obtain ⟨hmem, hbelow⟩ := mem_enforced.1 hk'
  cases hmem
  omega

theorem Enforces.suppresses_iff (hb : b.Enforces limit) (n : Nat) :
    b.allows (.tally (n + 1)) = false ↔ ∃ k, limit = some k ∧ k < n := by
  rw [← Bool.not_eq_true, hb n]
  cases limit <;> simp

/-- A budget can suppress a call only as long as the count still grows. -/
theorem suppressed_lt (reached : b.allows (.tally n) = true) (h : b.allows (.tally (n + 1)) = false) :
    n < 2 ^ 53 := by
  by_contra late
  rw [Double.tally_stuck (by omega), ← Double.tally_stuck (by omega : 2 ^ 53 ≤ n), reached] at h
  cases h

theorem allows_first (b : Budget) : b.allows (Double.zero.add .one) = true := by
  show b.allows (.tally (0 + 1)) = true
  cases b with
  | unbounded => rfl
  | bounded x =>
    rw [allows, (Double.tally_compares Double.toInt?_one (by decide) (0 + 1)).2]
    rfl

theorem allows_larger {b' : Budget} (hb : b.Adds (some k)) (hb' : b'.Adds limit)
    (larger : ∀ k' ∈ limit, k ≤ k') (count : Double) (h : b.allows count = true) :
    b'.allows count = true := by
  cases hb with
  | bounded hx =>
    cases hb' with
    | unbounded => rfl
    | bounded hx' =>
      rw [allows, Bool.or_eq_true] at h ⊢
      exact h.imp_right fun hle => Double.le_larger hle hx hx' (larger _ rfl)

/-- A bounded budget reserves the first call and all that it adds. -/
theorem calls_bounded (hb : b.Adds (some k)) : b.calls = k + 1 := by
  cases hb with
  | @bounded x _ h =>
    unfold Double.toInt? at h
    unfold calls
    cases hs : x.steps? with
    | none => simp [hs] at h
    | some s =>
      simp only [hs] at h ⊢
      split at h
      · rw [Option.some.inj h]; simp
      · cases h

end Budget

end Lifecycle
