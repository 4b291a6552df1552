import Lifecycle.Proofs.Event.Contract
import Lifecycle.Proofs.Json.Path
import Lifecycle.Proofs.Number.Whole

/- Which delays are accepted, by what their literals denote.

   A number of a text comes to the check as its nearest double or as its literal. A double is a
   delay if it is a natural number, a literal if it is a natural number in digits alone
   (`delaySeconds?_number`, `delaySeconds?_exact`). So the delay of a text is judged by its value
   as long as that is no more than 2^53 - 1 (`value_iff_of_safe`); a greater one also has to be
   without fraction and exponent. A text that is inconsistent has nothing but doubles, and its delay is judged by the nearest one. `delay_ruling` has all of it. -/
namespace Lifecycle

/-! ## Natural numbers among doubles and literals -/

theorem Double.isInteger_nonneg {x : Double} : (x.isInteger && Double.zero.le x) = true ↔
    ∃ n : Nat, x.toInt? = some (n : Int) := by
  have hpos : (0 : Int) < stepsPerOne := by exact_mod_cast stepsPerOne_pos
  have hzero : zero = .finite false ⟨0, by decide⟩ := rfl
  cases x with
  | nan => simp [isInteger, toInt?, steps?]
  | infinite negative => simp [isInteger, toInt?, steps?]
  | finite negative rank =>
    rw [hzero]
    simp only [isInteger, toInt?, le, steps?, Double.units_zero, Bool.false_eq_true, if_false,
      Nat.cast_zero]
    generalize (if negative = true then -(units rank.val : Int) else units rank.val) = s
    rw [Bool.and_eq_true, beq_iff_eq, decide_eq_true_eq]
    constructor
    · rintro ⟨hwhole, hnonneg⟩
      obtain ⟨n, hn⟩ := Int.eq_ofNat_of_zero_le (Int.ediv_nonneg hnonneg hpos.le)
      exact ⟨n, by rw [if_pos hwhole, hn]⟩
    · rintro ⟨n, hn⟩
      split at hn
      · rename_i hwhole
        refine ⟨hwhole, ?_⟩
        rw [← Int.ediv_mul_cancel (Int.dvd_of_emod_eq_zero hwhole), Option.some.inj hn]
        exact Int.mul_nonneg (Int.natCast_nonneg n) hpos.le
      · cases hn

namespace Literal

variable {l : Literal}

theorem value_of_isInteger (h : l.isInteger = true) (hn : l.negative = false) : l.value = l.whole := by
  rw [value, decimal_of_isInteger h, Decimal.value, Decimal.magnitude, hn, zpow_zero, mul_one]
  exact one_mul _

/-- Of the literals that are not safe, those in digits alone and without a sign denote natural
    numbers beyond the safe ones. -/
theorem digits_iff_of_unsafe (h : l.isSafe = false) : (l.isInteger && !l.negative) = true ↔
    ∃ n : Nat, l.value = n ∧ (n ≤ safeLimit ∨ l.isInteger = true) := by
  have hbeyond (n : Nat) (hn : l.value = n) : ¬ n ≤ safeLimit := by
    intro hle
    rw [isSafe_of_value hn hle] at h
    cases h
  rw [Bool.and_eq_true, Bool.not_eq_true']
  constructor
  · rintro ⟨hi, hsign⟩
    exact ⟨l.whole, value_of_isInteger hi hsign, .inr hi⟩
  · rintro ⟨n, hn, hle | hi⟩
    · exact absurd hle (hbeyond n hn)
    · refine ⟨hi, ?_⟩
      by_contra hsign
      have hzero := (magnitude_of_value hn).2 (by simpa using hsign)
      exact hbeyond n hn (by rw [hzero]; exact Nat.zero_le _)

end Literal

namespace Envelope

variable {d : Document} {l : Literal} {exact : Bool}

/-! ## The members of a text -/

/-- No part of a text denotes a function, so the value of a text can never be waited for. -/
theorem isFunction_value (exact : Bool) (d : Document) : (d.value exact).isFunction = false := by
  cases d with
  | number l =>
    rw [Document.value, Document.numberValue]
    split <;> rfl
  | _ => rfl

theorem isAwaitable_value (exact : Bool) (ms : List (Text × Document)) :
    isAwaitable ((Document.object ms).value exact) = false := by
  rw [isAwaitable, Document.get_object]
  cases Member.last? "then" ms with
  | none => rfl
  | some d =>
    rw [Option.map_some, Option.getD_some, isFunction_value]
    rfl

theorem object_of_child? {c : Document} {name : Text} (h : d.child? (.member name) = some c) :
    ∃ ms, d = .object ms ∧ Member.last? name ms = some c := by
  cases d with
  | object ms => exact ⟨ms, rfl, h⟩
  | _ => cases h

/-! ## Delays -/

/-- The delays that are taken. In a text whose numbers are kept exact these are the natural numbers,
    beyond 2^53 - 1 in digits alone; in any other text they are the literals whose nearest double is
    a natural number. -/
def TakesDelay (exact : Bool) (l : Literal) : Prop :=
  if exact then ∃ n : Nat, l.value = n ∧ (n ≤ Literal.safeLimit ∨ l.isInteger = true)
  else ∃ n : Nat, l.toDouble.toInt? = some (n : Int)

theorem delaySeconds?_number {x : Double} : delaySeconds? (.number x) =
    if (x.isInteger && Double.zero.le x) = true then some x else none := rfl

theorem delaySeconds?_exact : delaySeconds? (.exact l) =
    if (l.isInteger && !l.negative) = true then some l.toDouble else none := rfl

theorem delaySeconds?_value :
    (TakesDelay exact l → delaySeconds? (Document.numberValue exact l) = some l.toDouble) ∧
    (¬ TakesDelay exact l → delaySeconds? (Document.numberValue exact l) = none) := by
  suffices h : ∃ b : Bool, delaySeconds? (Document.numberValue exact l) =
      (if b = true then some l.toDouble else none) ∧ (b = true ↔ TakesDelay exact l) by
    obtain ⟨b, hread, hiff⟩ := h
    rw [hread, ← hiff]
    exact ⟨fun hb => if_pos hb, fun hb => if_neg hb⟩
  cases exact with
  | false => exact ⟨_, delaySeconds?_number, Double.isInteger_nonneg⟩
  | true =>
    cases hs : l.isSafe with
    | false =>
      rw [Document.numberValue, hs]
      exact ⟨_, delaySeconds?_exact, Literal.digits_iff_of_unsafe hs⟩
    | true =>
      rw [Document.numberValue, hs]
      refine ⟨_, delaySeconds?_number, Double.isInteger_nonneg.trans ?_⟩
      -- a safe literal that denotes a natural number never needs the second half
      refine exists_congr fun n => (Literal.value_iff_of_safe hs).symm.trans ?_
      exact ⟨fun hn => ⟨hn, .inl (Literal.value_le_of_safe hs hn)⟩, And.left⟩

/-- A text of a response in progress whose members are well typed and whose delay is that number. -/
structure DelayText (t : Text) (d : Document) (l : Literal) : Prop where
  read : Json.document? t = some d
  status : d.toValue.get "status" = .text Status.inProgress.name
  typed : ∀ p ∈ parts d.toValue, p.isWellTyped = true
  delay : d.child? (.member "callbackDelaySeconds") = some (.number l)

namespace DelayText

variable {t : Text}

theorem parsed (h : DelayText t d l) : Json.parse? t = some d.toValue := by
  rw [Json.parse?, h.read]
  rfl

theorem wellTyped (h : DelayText t d l) : WellTyped d.toValue .inProgress := by
  obtain ⟨ms, rfl, -⟩ := object_of_child? h.delay
  exact ⟨rfl, h.status, isAwaitable_value _ ms, h.typed⟩

theorem get_delay (h : DelayText t d l) :
    d.toValue.get "callbackDelaySeconds" = Document.numberValue d.isConsistent l := by
  obtain ⟨ms, rfl, hlast⟩ := object_of_child? h.delay
  rw [Document.toValue, Document.get_object, hlast]
  rfl

theorem present (h : DelayText t d l) : (d.toValue.get "callbackDelaySeconds").present? =
    some (d.toValue.get "callbackDelaySeconds") := by
  rw [h.get_delay, Document.numberValue]
  split <;> rfl

theorem check_taken (h : DelayText t d l) {seconds : Double}
    (hs : delaySeconds? (Document.numberValue d.isConsistent l) = some seconds) :
    check d.toValue = .ok (inProgressReport d.toValue (some seconds)) := by
  rw [← h.get_delay] at hs
  rw [h.wellTyped.check_eq, report, h.present]
  simp only [hs]

theorem check_refused (h : DelayText t d l)
    (hs : delaySeconds? (Document.numberValue d.isConsistent l) = none) :
    check d.toValue = .error ⟨.invalidDelay, "callbackDelaySeconds must be a non-negative integer, got " ++
      Json.compact (d.toValue.get "callbackDelaySeconds"), d.toValue⟩ := by
  rw [← h.get_delay] at hs
  rw [h.wellTyped.check_eq, report, h.present]
  simp only [hs]
  rfl

theorem delayOf_eq (h : DelayText t d l) {report : Report} (accepted : check d.toValue = .ok report) :
    delayOf d.toValue = some l.toDouble := by
  by_cases htaken : TakesDelay d.isConsistent l
  · rw [delayOf, h.present, h.get_delay]
    exact delaySeconds?_value.1 htaken
  · rw [h.check_refused (delaySeconds?_value.2 htaken)] at accepted
    cases accepted

theorem of_accepted {e : InProgressEvent} {warnings : List Warning} (read : Json.document? t = some d)
    (accepted : check d.toValue = .ok ⟨.inProgress e, warnings⟩)
    (delay : d.child? (.member "callbackDelaySeconds") = some (.number l)) : DelayText t d l := by
  have hruling := check_ruling d.toValue
  rw [accepted] at hruling
  cases hruling with
  | accepted typed _ => exact ⟨read, typed.status, typed.typed, delay⟩

end DelayText

/-- **A number that stands as the delay of a response in progress is accepted exactly if it is one
    of the delays that are taken**, and is refused as a delay otherwise. -/
theorem delay_ruling {t : Text} (h : DelayText t d l) : Json.parse? t = some d.toValue ∧
    (TakesDelay d.isConsistent l → check d.toValue = .ok (inProgressReport d.toValue (some l.toDouble))) ∧
    (¬ TakesDelay d.isConsistent l → check d.toValue = .error ⟨.invalidDelay,
      "callbackDelaySeconds must be a non-negative integer, got " ++
        Json.compact (d.toValue.get "callbackDelaySeconds"), d.toValue⟩) := by
  refine ⟨h.parsed, ?_, ?_⟩
  · intro htaken
    exact h.check_taken (delaySeconds?_value.1 htaken)
  · intro hrefused
    exact h.check_refused (delaySeconds?_value.2 hrefused)

/-! ## Integers beyond the doubles -/

/-- What a document says of its delay: the literal, whether numbers are exact, the status, and
    whether the members are well typed. -/
def delayReading (d : Document) : Option Literal × Bool × Option Text × Bool :=
  ((d.child? (.member "callbackDelaySeconds")).bind Document.literal?, d.isConsistent,
    (d.toValue.get "status").text?, (parts d.toValue).all Part.isWellTyped)

theorem delayText_of_reading {t : Text}
    (h : (Json.document? t).map delayReading = some (some l, exact, some Status.inProgress.name, true)) :
    ∃ d, DelayText t d l ∧ d.isConsistent = exact := by
  obtain ⟨d, hd, heq⟩ := Option.map_eq_some_iff.1 h
  simp only [delayReading, Prod.mk.injEq] at heq
  obtain ⟨hliteral, hconsistent, hstatus, htyped⟩ := heq
  obtain ⟨c, hc, hl⟩ := Option.bind_eq_some_iff.1 hliteral
  rw [Document.literal?_eq_some hl] at hc
  refine ⟨d, ⟨hd, ?_, List.all_eq_true.1 htyped, hc⟩, hconsistent⟩
  cases hv : d.toValue.get "status" with
  | text s =>
    rw [hv] at hstatus
    exact congrArg Value.text (Option.some.inj hstatus)
  | _ => rw [hv] at hstatus; cases hstatus

/-- An integer that no double holds, beside a member that is repeated unchanged. -/
theorem long_delay_accepted :
    let t : Text := "\x7b\"a\":0,\"status\":\"IN_PROGRESS\",\"callbackDelaySeconds\":12345678901234567891,\"a\":0.0\x7d"
    ∃ d l, DelayText t d l ∧ TakesDelay d.isConsistent l ∧
      check d.toValue = .ok (inProgressReport d.toValue (some l.toDouble)) := by
  intro t
  have hread : (Json.document? t).map delayReading =
      some (some ⟨false, 12345678901234567891, [], none⟩, true, some Status.inProgress.name, true) := by
    decide +kernel
  obtain ⟨d, h, hexact⟩ := delayText_of_reading hread
  have taken : TakesDelay d.isConsistent ⟨false, 12345678901234567891, [], none⟩ := by
    rw [hexact]
    exact ⟨_, Literal.value_of_isInteger rfl rfl, .inr rfl⟩
  exact ⟨d, _, h, taken, (delay_ruling h).2.1 taken⟩

/-- An integer of that size is refused as a delay if it is written with an exponent. -/
theorem exponent_delay_refused :
    let t : Text := "\x7b\"status\":\"IN_PROGRESS\",\"callbackDelaySeconds\":1e20\x7d"
    ∃ d l, DelayText t d l ∧ d.isConsistent = true ∧ l.value = (10 ^ 20 : Nat) ∧
      Json.parse? t = some d.toValue ∧ check d.toValue = .error ⟨.invalidDelay,
        "callbackDelaySeconds must be a non-negative integer, got 1e20", d.toValue⟩ := by
  intro t
  let l : Literal := ⟨false, 1, [], some ⟨false, none, 2, [0]⟩⟩
  have hread : (Json.document? t).map delayReading =
      some (some l, true, some Status.inProgress.name, true) := by decide +kernel
  obtain ⟨d, h, hexact⟩ := delayText_of_reading hread
  have hvalue : l.value = (10 ^ 20 : Nat) := by decide +kernel
  have hrefused : delaySeconds? (Document.numberValue true l) = none := by decide +kernel
  have hwords : ("callbackDelaySeconds must be a non-negative integer, got " : Text) ++
      Json.compact (Document.numberValue true l) =
        "callbackDelaySeconds must be a non-negative integer, got 1e20" := by decide +kernel
  refine ⟨d, l, h, hexact, hvalue, h.parsed, ?_⟩
  rw [h.check_refused (by rw [hexact]; exact hrefused), h.get_delay, hexact, hwords]

end Envelope

end Lifecycle
