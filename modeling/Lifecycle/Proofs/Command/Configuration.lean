import Lifecycle.Configuration
import Lifecycle.Proofs.Number.Rounding

/- The fields of the configuration, each judged by itself.

   The text of a field is that of its flag, even an empty one, or else that of its environment variable.
   Whether it is fit for the field depends on this text alone (`fault?_isNone`), and for the two numbers
   on the whole number that the text spells, if it is not blank (`wholeNumber_cases`). So a configuration
   is made if every field is fit, and otherwise there is one issue for each field that is not
   (`load_judges`). -/
namespace Lifecycle

namespace Double

variable {x : Double} {n : Nat}

theorem isInteger_eq (x : Double) : x.isInteger = x.toInt?.isSome := by
  rw [isInteger, toInt?]
  cases x.steps? with
  | none => rfl
  | some s =>
    show (s % stepsPerOne == 0) = (if s % stepsPerOne = 0 then some (s / stepsPerOne) else none).isSome
    split
    · exact beq_iff_eq.2 ‹_›
    · exact beq_eq_false_iff_ne.2 ‹_›

theorem toInt?_thousandfold (h : x.toInt? = some (n : Int)) (hn : 0 < n) (hshort : 125 * n < 2 ^ 53) :
    (x.scale 1000).toInt? = some ((n * 1000 : Nat) : Int) := by
  cases x with
  | nan => cases h
  | infinite negative => cases h
  | finite negative rank =>
    obtain ⟨hunits, hzero⟩ := units_of_toInt? h
    obtain rfl : negative = false := by
      rw [← Bool.not_eq_true]
      intro hnegative
      exact hn.ne' (hzero hnegative)
    exact scale_exact (e := 3) hunits (by ring) hshort (by decide)

end Double

/-! ## Texts of fields -/

namespace Field

/-- The text that counts for a field: the one its flag gives, or else the one in the environment. -/
def effective (flags : Given) (environment : List (Text × Text)) (f : Field) : Option Text :=
  match flags f with
  | some t => some t
  | none => Member.find? f.variableName environment

/-- Whether a text gives no number: there is none, or nothing but blanks. -/
def isBlank (given : Option Text) : Bool := given.all fun t => t.trim.isEmpty

def whole? (given : Option Text) : Option Int := given.bind fun t => (Numeral.read? t).bind Double.toInt?

def admits : Field → Option Text → Bool
  | .endpoint, given => given.all Url.isAbsolute
  | .functionName, given => given.all fun t => !t.isEmpty
  | .region, given => given.all fun t => !t.isEmpty
  | .maxReinvoke, given => isBlank given || (whole? given).any fun n => decide (0 ≤ n)
  | .timeout, given => isBlank given || (whole? given).any fun n => decide (1 ≤ n ∧ n ≤ 900)

theorem effective_eq (flags : Given) (environment : List (Text × Text)) :
    flags.orElse (.ofEnvironment environment) = effective flags environment := by
  funext f
  rw [Given.orElse, Given.ofEnvironment, effective]
  cases flags f <;> rfl

end Field

namespace Configuration

variable {given : Option Text} {fields : Given}

/-! ## Numbers -/

/-- What becomes of a text for a number: a blank one gives none, a whole number is taken as it is, and
    anything else is a fault. -/
theorem wholeNumber_cases (subject : Text) (given : Option Text) :
    (Field.isBlank given = true ∧ wholeNumber subject given = .ok none) ∨
    (Field.isBlank given = false ∧ ∃ x n, Field.whole? given = some n ∧ x.toInt? = some n ∧
      wholeNumber subject given = .ok (some x)) ∨
    (Field.isBlank given = false ∧ Field.whole? given = none ∧
      ∃ m, wholeNumber subject given = .error m) := by
  cases given with
  | none => exact .inl ⟨rfl, rfl⟩
  | some t =>
    rw [Field.isBlank, Field.whole?, wholeNumber, Option.all_some, Option.bind_some]
    cases t.trim.isEmpty with
    | true => exact .inl ⟨rfl, rfl⟩
    | false =>
      right
      cases Numeral.read? t with
      | none => exact .inr ⟨rfl, rfl, _, rfl⟩
      | some x =>
        rw [Option.bind_some]
        cases hx : x.toInt? with
        | none =>
          have broken : x.isInteger = false := by rw [Double.isInteger_eq, hx]; rfl
          refine .inr ⟨rfl, rfl, ?_⟩
          -- what is not a number has a message of its own
          cases x with
          | nan => exact ⟨_, rfl⟩
          | infinite negative => exact ⟨_, rfl⟩
          | finite negative rank =>
            simp only [broken]
            exact ⟨_, rfl⟩
        | some n =>
          have whole : x.isInteger = true := by rw [Double.isInteger_eq, hx]; rfl
          refine .inl ⟨rfl, x, n, rfl, hx, ?_⟩
          cases x with
          | nan => cases hx
          | infinite negative => cases hx
          | finite negative rank =>
            simp only [whole]
            rfl

theorem checkMaxReinvoke_cases (given : Option Text) :
    (Field.isBlank given = true ∧ checkMaxReinvoke given = .ok none) ∨
    (Field.isBlank given = false ∧ ∃ x n, Field.whole? given = some n ∧ x.toInt? = some n ∧ 0 ≤ n ∧
      checkMaxReinvoke given = .ok (some x)) ∨
    (Field.maxReinvoke.admits given = false ∧ ∃ m, checkMaxReinvoke given = .error m) := by
  rw [checkMaxReinvoke, Field.admits]
  obtain ⟨blank, read⟩ | ⟨present, x, n, whole, hx, read⟩ | ⟨present, whole, m, read⟩ :=
    wholeNumber_cases "Max re-invoke" given
  · exact .inl ⟨blank, by rw [read]⟩
  · have zero : Double.zero.toInt? = some 0 := by decide +kernel
    have below := Double.lt_of_toInt? hx zero
    -- a double that is whole is ordered by its whole number
    rw [present, whole, read]
    simp only [below, decide_eq_true_eq]
    by_cases hn : n < 0
    · rw [if_pos hn]
      refine .inr (.inr ⟨?_, _, rfl⟩)
      rw [Bool.false_or, Option.any_some, decide_eq_false (Int.not_le.2 hn)]
    · rw [if_neg hn]
      exact .inr (.inl ⟨trivial, x, n, rfl, hx, Int.not_lt.1 hn, rfl⟩)
  · rw [present, whole, read]
    exact .inr (.inr ⟨rfl, m, rfl⟩)

theorem checkTimeout_cases (given : Option Text) :
    (Field.isBlank given = true ∧ checkTimeout given = .ok (.ofNat 30)) ∨
    (Field.isBlank given = false ∧ ∃ x n, Field.whole? given = some n ∧ x.toInt? = some n ∧ 1 ≤ n ∧
      n ≤ 900 ∧ checkTimeout given = .ok x) ∨
    (Field.timeout.admits given = false ∧ ∃ m, checkTimeout given = .error m) := by
  rw [checkTimeout, Field.admits]
  obtain ⟨blank, read⟩ | ⟨present, x, n, whole, hx, read⟩ | ⟨present, whole, m, read⟩ :=
    wholeNumber_cases "Timeout" given
  · exact .inl ⟨blank, by rw [read]⟩
  · have least := Double.lt_of_toInt? hx (Double.toInt?_ofNat (n := 1) (by decide))
    have greatest := Double.lt_of_toInt? (Double.toInt?_ofNat (n := 900) (by decide)) hx
    rw [present, whole, read]
    simp only [least, greatest, decide_eq_true_eq]
    by_cases short : n < (1 : Nat)
    · rw [if_pos short]
      refine .inr (.inr ⟨?_, _, rfl⟩)
      rw [Bool.false_or, Option.any_some, decide_eq_false (by omega)]
    · rw [if_neg short]
      by_cases long : (900 : Nat) < n
      · rw [if_pos long]
        refine .inr (.inr ⟨?_, _, rfl⟩)
        rw [Bool.false_or, Option.any_some, decide_eq_false (by omega)]
      · rw [if_neg long]
        exact .inr (.inl ⟨trivial, x, n, rfl, hx, by omega, by omega, rfl⟩)
  · rw [present, whole, read]
    exact .inr (.inr ⟨rfl, m, rfl⟩)

/-! ## Fields -/

/-- **Each field is judged by its own text.** -/
theorem fault?_isNone (f : Field) (given : Option Text) : (fault? f given).isNone = f.admits given := by
  cases f with
  | endpoint =>
    cases given with
    | none => rfl
    | some t =>
      rw [fault?, checkEndpoint, Field.admits, Option.all_some]
      cases Url.isAbsolute t <;> rfl
  | functionName =>
    cases given with
    | none => rfl
    | some t => cases t <;> rfl
  | region =>
    cases given with
    | none => rfl
    | some t => cases t <;> rfl
  | maxReinvoke =>
    rw [fault?]
    obtain ⟨blank, ok⟩ | ⟨-, x, n, whole, -, range, ok⟩ | ⟨refused, m, error⟩ :=
      checkMaxReinvoke_cases given
    · rw [ok, Field.admits, blank]
      rfl
    · rw [ok, Field.admits, whole, Option.any_some, decide_eq_true range, Bool.or_true]
      rfl
    · rw [error, refused]
      rfl
  | timeout =>
    rw [fault?]
    obtain ⟨blank, ok⟩ | ⟨-, x, n, whole, -, low, high, ok⟩ | ⟨refused, m, error⟩ :=
      checkTimeout_cases given
    · rw [ok, Field.admits, blank]
      rfl
    · rw [ok, Field.admits, whole, Option.any_some, decide_eq_true ⟨low, high⟩, Bool.or_true]
      rfl
    · rw [error, refused]
      rfl

/-- There is one issue for each field that is not fit, in the order of the fields. -/
theorem places_issues (fields : Given) : (issues fields).map ConfigurationIssue.place =
    (Field.all.filter fun f => !f.admits (fields f)).map Field.label := by
  rw [issues]
  induction Field.all with
  | nil => rfl
  | cons f fs ih =>
    rw [List.filterMap_cons, List.filter_cons, ← fault?_isNone]
    cases fault? f (fields f) with
    | none => exact ih
    | some m => exact congrArg (f.label :: ·) ih

/-! ## The whole configuration -/

theorem load_eq_ok {c : Configuration} : load fields = .ok c ↔
    ∃ endpoint function region bound seconds, checkEndpoint (fields .endpoint) = .ok endpoint ∧
      checkFunctionName (fields .functionName) = .ok function ∧ checkRegion (fields .region) = .ok region ∧
      checkMaxReinvoke (fields .maxReinvoke) = .ok bound ∧ checkTimeout (fields .timeout) = .ok seconds ∧
      c = ⟨⟨endpoint, function⟩, region, .ofMax? bound, seconds.scale 1000⟩ := by
  rw [load]
  cases checkEndpoint (fields .endpoint) <;> cases checkFunctionName (fields .functionName) <;>
    cases checkRegion (fields .region) <;> cases checkMaxReinvoke (fields .maxReinvoke) <;>
      cases checkTimeout (fields .timeout) <;> simp [eq_comm]

theorem load_eq_error {is : List ConfigurationIssue} (h : load fields = .error is) :
    is = issues fields := by
  unfold load at h
  split at h
  · cases h
  · exact (Except.error.inj h).symm

theorem ok_of_faultless {α : Type} {r : Except Text α}
    (h : (match r with | .ok _ => none | .error m => some m) = none) : ∃ v, r = .ok v := by
  cases r with
  | ok v => exact ⟨v, rfl⟩
  | error m => cases h

theorem load_accepts : (∃ c, load fields = .ok c) ↔ ∀ f : Field, f.admits (fields f) = true := by
  constructor
  · rintro ⟨c, h⟩ f
    obtain ⟨endpoint, function, region, bound, seconds, he, hf, hr, hb, hs, -⟩ := load_eq_ok.1 h
    rw [← fault?_isNone]
    cases f <;> simp only [fault?, he, hf, hr, hb, hs, Option.isNone_none]
  · intro fit
    have faultless (f : Field) : fault? f (fields f) = none := by
      rw [← Option.isNone_iff_eq_none, fault?_isNone, fit]
    obtain ⟨endpoint, he⟩ := ok_of_faultless (faultless .endpoint)
    obtain ⟨function, hf⟩ := ok_of_faultless (faultless .functionName)
    obtain ⟨region, hr⟩ := ok_of_faultless (faultless .region)
    obtain ⟨bound, hb⟩ := ok_of_faultless (faultless .maxReinvoke)
    obtain ⟨seconds, hs⟩ := ok_of_faultless (faultless .timeout)
    exact ⟨_, load_eq_ok.2 ⟨endpoint, function, region, bound, seconds, he, hf, hr, hb, hs, rfl⟩⟩

theorem load_budget {c : Configuration} (h : load fields = .ok c) :
    (Field.isBlank (fields .maxReinvoke) = true ∧ c.budget = .unbounded) ∨
    (Field.isBlank (fields .maxReinvoke) = false ∧ ∃ x n, 0 ≤ n ∧
      Field.whole? (fields .maxReinvoke) = some n ∧ x.toInt? = some n ∧ c.budget = .bounded x) := by
  obtain ⟨endpoint, function, region, bound, seconds, -, -, -, hb, -, rfl⟩ := load_eq_ok.1 h
  obtain ⟨blank, ok⟩ | ⟨present, x, n, whole, hx, range, ok⟩ | ⟨-, m, error⟩ :=
    checkMaxReinvoke_cases (fields .maxReinvoke)
  · cases ok.symm.trans hb
    exact .inl ⟨blank, rfl⟩
  · cases ok.symm.trans hb
    exact .inr ⟨present, x, n, range, whole, hx, rfl⟩
  · cases error.symm.trans hb

theorem load_timeout {c : Configuration} (h : load fields = .ok c) :
    ∃ n : Nat, 1 ≤ n ∧ n ≤ 900 ∧ c.timeoutMs.toInt? = some ((n * 1000 : Nat) : Int) ∧
      (if Field.isBlank (fields .timeout) then n = 30
        else Field.whole? (fields .timeout) = some (n : Int)) := by
  obtain ⟨endpoint, function, region, bound, seconds, -, -, -, -, hs, rfl⟩ := load_eq_ok.1 h
  obtain ⟨blank, ok⟩ | ⟨present, x, n, whole, hx, low, high, ok⟩ | ⟨-, m, error⟩ :=
    checkTimeout_cases (fields .timeout)
  · have thirty : seconds.toInt? = some ((30 : Nat) : Int) := by
      rw [Except.ok.inj (hs.symm.trans ok)]
      exact Double.toInt?_ofNat (by decide)
    refine ⟨30, by decide, by decide, Double.toInt?_thousandfold thirty (by decide) (by decide), ?_⟩
    rw [if_pos blank]
  · obtain rfl := Except.ok.inj (hs.symm.trans ok)
    obtain ⟨n, rfl⟩ := Int.eq_ofNat_of_zero_le (show 0 ≤ n by omega)
    refine ⟨n, by omega, by omega, Double.toInt?_thousandfold hx (by omega) (by omega), ?_⟩
    rw [present]
    exact whole
  · cases error.symm.trans hs

end Configuration

end Lifecycle
