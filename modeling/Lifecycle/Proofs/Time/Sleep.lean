import Lifecycle.Proofs.Number.Whole
import Lifecycle.Time.Sleep

/- How a wait goes, whatever happens to it.

   A wait for a natural number of milliseconds below 2^53 takes off one slice after the other, and
   what is left is a natural number each time, so nothing is lost to rounding. `Stands` says where
   such a wait can stand: with the slices that it has set, with what is left to wait for, at which
   time, with which timers and listeners, and how many moments can still come. Every moment keeps
   it and uses up one of those (`Stands.step`). An abort leaves the time and the slices as they are
   for good (`Broken.step`). -/
namespace Lifecycle

open Double (stepsPerOne)

/-! ## Slices -/

theorem Clock.length_of_toInt? {x : Double} {n : Nat} (h : x.toInt? = some (n : Int)) :
    Clock.length x = n * stepsPerOne := by
  rw [Clock.length, Double.steps?_of_toInt? h, Option.getD_some, ← Int.natCast_mul, Int.toNat_natCast]

namespace Wait

variable {x : Double} {n : Nat}

/-- How many slices there are in so many milliseconds, the last one of which may be shorter. -/
def slices (n : Nat) : Nat := (n + (maxDelay - 1)) / maxDelay

theorem maxDelay_pos : 0 < maxDelay := by decide

theorem slices_zero : slices 0 = 0 := by decide

theorem slices_eq (hn : 0 < n) : slices n = slices (n - min n maxDelay) + 1 := by
  have hpos := maxDelay_pos
  rcases Nat.le_total n maxDelay with hle | hle
  · rw [Nat.min_eq_left hle, Nat.sub_self, slices_zero, slices,
      show n + (maxDelay - 1) = n - 1 + maxDelay by omega, Nat.add_div_right _ hpos,
      Nat.div_eq_of_lt (by omega)]
  · rw [Nat.min_eq_right hle, slices, slices,
      show n + (maxDelay - 1) = n - maxDelay + (maxDelay - 1) + maxDelay by omega,
      Nat.add_div_right _ hpos]

theorem toInt?_slice (h : x.toInt? = some (n : Int)) :
    (slice x).toInt? = some ((min n maxDelay : Nat) : Int) := by
  have hmax : (Double.ofNat maxDelay).toInt? = some (maxDelay : Int) := Double.toInt?_ofNat (by decide)
  have hmin : slice x = if (Double.ofNat maxDelay).lt x then .ofNat maxDelay else x := by
    rw [slice]
    generalize Double.ofNat maxDelay = y at hmax ⊢
    cases x <;> cases y <;> first | rfl | cases h | cases hmax
  rw [hmin, Double.lt_of_toInt? hmax h]
  split
  · rename_i hlt
    rw [hmax, Nat.min_eq_right (by simpa using (of_decide_eq_true hlt).le)]
  · rename_i hle
    rw [h, Nat.min_eq_left (by simpa using hle)]

theorem zero_lt_iff (h : x.toInt? = some (n : Int)) : Double.zero.lt x = decide (0 < n) := by
  have hzero : Double.zero.toInt? = some 0 := by decide +kernel
  rw [Double.lt_of_toInt? hzero h, decide_eq_decide]
  exact Int.natCast_pos

end Wait

namespace Sleep

variable {n k : Nat} {s s' : Sleep} {m : Moment} {ms : List Moment} {reason : AbortReason}

/-! ## What can happen -/

theorem resume_aborted {rest : Double} (h : s.signal = some reason) :
    s.resume rest = s.settle (.cancelled (.cancelledBy reason)) := by
  rw [resume, h]

theorem resume_positive {rest : Double} (h : s.signal = none) (positive : Double.zero.lt rest = true) :
    s.resume rest = s.enter rest := by
  rw [resume, h, positive]
  rfl

theorem resume_zero {rest : Double} (h : s.signal = none) (zero : Double.zero.lt rest = false) :
    s.resume rest = s.settle .over := by
  rw [resume, h, zero]
  rfl

/-- The moments that can come to a wait, with what each of them makes of it. -/
inductive Comes (s : Sleep) : Moment → Sleep → Prop where
  | resumes {rest : Double} (phase : s.phase = .ready rest) : Comes s .resumes (s.resume rest)
  | passes {time due : Nat} {rest : Double} (phase : s.phase = .asleep due rest) (later : s.now < time)
      (early : time ≤ due) : Comes s (.passes time) { s with now := time }
  | fires {rest : Double} (phase : s.phase = .asleep s.now rest) : Comes s .fires (s.fire rest)
  | aborts (reason : AbortReason) (listens : s.listens = true) (unaborted : s.signal = none) :
      Comes s (.aborts reason) (s.abort reason)
  | rejects {reason : AbortReason} (phase : s.phase = .stopped) (aborted : s.signal = some reason) :
      Comes s .rejects (s.settle (.cancelled (.cancelledBy reason)))

theorem step_eq_some : s.step m = some s' ↔ Comes s m s' := by
  constructor
  · intro h
    cases m with
    | aborts reason =>
      rw [step] at h
      split at h
      · rename_i hcan
        cases h
        rw [Bool.and_eq_true, Option.isNone_iff_eq_none] at hcan
        exact .aborts reason hcan.1 hcan.2
      · cases h
    | resumes =>
      rw [step] at h
      split at h
      · rename_i phase
        cases h
        exact .resumes phase
      · cases h
    | passes time =>
      rw [step] at h
      split at h
      · rename_i phase
        split at h
        · rename_i htime
          cases h
          exact .passes phase htime.1 htime.2
        · cases h
      · cases h
    | fires =>
      rw [step] at h
      split at h
      · rename_i phase
        split at h
        · rename_i hdue
          cases h
          exact .fires (hdue ▸ phase)
        · cases h
      · cases h
    | rejects =>
      rw [step] at h
      split at h
      · rename_i phase aborted
        cases h
        exact .rejects phase aborted
      · cases h
  · intro h
    cases h with
    | resumes phase => simp [step, phase]
    | passes phase later early => simp [step, phase, later, early]
    | fires phase => simp [step, phase]
    | aborts reason listens unaborted => simp [step, listens, unaborted]
    | rejects phase aborted => simp [step, phase, aborted]

/-! ## Where a wait stands -/

theorem isSettled_iff : s.isSettled = true ↔ ∃ result, s.phase = .settled result := by
  rw [isSettled]
  cases s.phase <;> simp

/-- Neither a timer nor a listener of the wait is there. -/
def IsIdle (s : Sleep) : Prop := s.timers = 0 ∧ s.listeners = 0

/-- The slices of a wait for `n` milliseconds so far, when `r` of them are not yet in a slice. -/
structure Taken (n r : Nat) (ks : List Nat) (s : Sleep) : Prop where
  delays : s.delays.map Double.toInt? = ks.map fun k => some (k : Int)
  range : ∀ k ∈ ks, 1 ≤ k ∧ k ≤ Wait.maxDelay
  total : ks.sum + r = n
  count : ks.length + Wait.slices r = Wait.slices n

/-- The slices are read off the delays alone. -/
theorem Taken.of_delays {r : Nat} {ks : List Nat} (taken : Taken n r ks s) (h : s'.delays = s.delays) :
    Taken n r ks s' :=
  ⟨by rw [h, taken.delays], taken.range, taken.total, taken.count⟩

/-- How many moments can come from the end of a slice on. Each further slice takes two of them besides
    those in which time passes. -/
def ahead (r : Nat) : Nat := r * stepsPerOne + 2 * Wait.slices r + 1

/-- The places where a wait for `n` milliseconds can stand, with a bound on the moments to come. -/
inductive Stands (n : Nat) (s : Sleep) (k : Nat) : Prop where
  | ready {r : Nat} {ks : List Nat} {rest : Double} (taken : Taken n r ks s) (phase : s.phase = .ready rest)
      (whole : rest.toInt? = some (r : Int)) (now : s.now = ks.sum * stepsPerOne) (idle : s.IsIdle)
      (bound : ahead r + s.signal.isNone.toNat ≤ k)
  | asleep {r : Nat} {ks : List Nat} {rest : Double} (taken : Taken n r ks s)
      (phase : s.phase = .asleep (ks.sum * stepsPerOne) rest) (whole : rest.toInt? = some (r : Int))
      (now : s.now ≤ ks.sum * stepsPerOne) (unaborted : s.signal = none) (timer : s.timers = 1)
      (listener : s.listeners = s.listens.toNat)
      (bound : ks.sum * stepsPerOne - s.now + 1 + (ahead r + 1) ≤ k)
  | stopped {r : Nat} {ks : List Nat} {reason : AbortReason} (taken : Taken n r ks s)
      (phase : s.phase = .stopped) (aborted : s.signal = some reason) (idle : s.IsIdle) (bound : 1 ≤ k)
  | finished {ks : List Nat} (taken : Taken n 0 ks s) (phase : s.phase = .settled .over)
      (now : s.now = n * stepsPerOne) (idle : s.IsIdle) (bound : s.signal.isNone.toNat ≤ k)
  | cancelled {r : Nat} {ks : List Nat} {reason : AbortReason} (taken : Taken n r ks s)
      (phase : s.phase = .settled (.cancelled (.cancelledBy reason))) (aborted : s.signal = some reason)
      (idle : s.IsIdle)

theorem stands_start {x : Double} (whole : x.toInt? = some (n : Int)) (listens : Bool) :
    Stands n (start listens x) (ahead n + 1) := by
  have htaken : Taken n n [] (start listens x) :=
    ⟨rfl, List.forall_mem_nil _, by rw [List.sum_nil, Nat.zero_add], by rw [List.length_nil, Nat.zero_add]⟩
  refine .ready htaken rfl whole ?_ ⟨rfl, rfl⟩ ?_
  · rw [List.sum_nil, Nat.zero_mul]
    rfl
  · exact Nat.add_le_add_left (Bool.toNat_le _) _

/-! ## One moment -/

/-- A wait that begins its next slice has one millisecond at least in it and the rest after it. -/
theorem stands_enter {r : Nat} {ks : List Nat} {rest : Double} (hn : n < 2 ^ 53) (taken : Taken n r ks s)
    (whole : rest.toInt? = some (r : Int)) (now : s.now = ks.sum * stepsPerOne) (idle : s.IsIdle)
    (unaborted : s.signal = none) (positive : 0 < r) : Stands n (s.enter rest) (ahead r) := by
  have htotal := taken.total
  have hslice := Wait.toInt?_slice whole
  have hmin : min r Wait.maxDelay ≤ r := Nat.min_le_left _ _
  have hleast : 1 ≤ min r Wait.maxDelay := Nat.le_min.2 ⟨positive, Wait.maxDelay_pos⟩
  have hmost : min r Wait.maxDelay ≤ Wait.maxDelay := Nat.min_le_right _ _
  have hrest := Double.toInt?_sub whole hslice hmin (by omega)
  have hcount := Wait.slices_eq positive
  have hlength := Clock.length_of_toInt? hslice
  generalize min r Wait.maxDelay = len at *
  have hsum : (ks ++ [len]).sum = ks.sum + len := by simp
  have hdue : s.now + Clock.length (Wait.slice rest) = (ks ++ [len]).sum * stepsPerOne := by
    rw [now, hlength, hsum, Nat.add_mul]
  have hsplit : r * stepsPerOne = len * stepsPerOne + (r - len) * stepsPerOne := by
    rw [← Nat.add_mul, Nat.add_sub_cancel' hmin]
  have htaken : Taken n (r - len) (ks ++ [len]) (s.enter rest) := by
    refine ⟨by simp [enter, taken.delays, hslice], ?_, by omega, ?_⟩
    · intro k hk
      obtain hk | rfl := by simpa using hk
      · exact taken.range k hk
      · exact ⟨hleast, hmost⟩
    · have := taken.count
      rw [List.length_append, List.length_singleton]
      omega
  refine .asleep htaken ?_ hrest ?_ unaborted ?_ ?_ ?_
  · rw [enter, hdue]
  · rw [← hdue]
    exact Nat.le_add_right _ _
  · rw [enter, idle.1]
  · rw [enter, idle.2, Nat.zero_add]
  · show (ks ++ [len]).sum * stepsPerOne - s.now + 1 + (ahead (r - len) + 1) ≤ ahead r
    rw [ahead, ahead, now, hsum, Nat.add_mul, Nat.add_sub_cancel_left]
    omega

theorem stands_resume {r : Nat} {ks : List Nat} {rest : Double} (hn : n < 2 ^ 53) (taken : Taken n r ks s)
    (whole : rest.toInt? = some (r : Int)) (now : s.now = ks.sum * stepsPerOne) (idle : s.IsIdle) :
    ∃ k, k < ahead r + s.signal.isNone.toNat ∧ Stands n (s.resume rest) k := by
  have hahead : 0 < ahead r := Nat.succ_pos _
  have hzero := Wait.zero_lt_iff whole
  cases hsignal : s.signal with
  | some reason =>
    rw [resume_aborted hsignal]
    exact ⟨0, by omega, .cancelled (taken.of_delays rfl) rfl hsignal idle⟩
  | none =>
    have hone : (none : Signal).isNone.toNat = 1 := rfl
    rcases Nat.eq_zero_or_pos r with rfl | hpos
    · rw [resume_zero hsignal (by simpa using hzero)]
      refine ⟨1, by omega, .finished (taken.of_delays rfl) rfl ?_ idle (Bool.toNat_le _)⟩
      show s.now = n * stepsPerOne
      rw [now, show ks.sum = n from taken.total]
    · rw [resume_positive hsignal (by simpa using hzero.trans (decide_eq_true hpos))]
      exact ⟨ahead r, by omega, stands_enter hn taken whole now idle hsignal hpos⟩

theorem Taken.abort {r : Nat} {ks : List Nat} (taken : Taken n r ks s) : Taken n r ks (s.abort reason) := by
  refine taken.of_delays ?_
  rw [Sleep.abort]
  split <;> rfl

/-- An abort finds a listener in a slice alone, and leaves neither it nor the timer behind. -/
theorem stands_abort (h : Stands n s k) (unaborted : s.signal = none) :
    ∃ k', k' < k ∧ Stands n (s.abort reason) k' := by
  cases h with
  | ready taken phase whole now idle bound =>
    have hk : (none : Signal).isNone.toNat = 1 := rfl
    rw [unaborted, hk] at bound
    have haborted : s.abort reason = { s with signal := some reason } := by rw [Sleep.abort, phase]
    exact ⟨k - 1, by omega, .ready taken.abort (by rw [haborted, phase]) whole (by rw [haborted, now])
      (by rw [haborted]; exact idle) (by rw [haborted]; show _ + 0 ≤ _; omega)⟩
  | asleep taken phase whole now _ timer listener bound =>
    have haborted : s.abort reason = { s with
        signal := some reason
        timers := s.timers - 1
        listeners := s.listeners - s.listens.toNat
        phase := .stopped } := by rw [Sleep.abort, phase]
    refine ⟨1, by omega, .stopped taken.abort (by rw [haborted]) (by rw [haborted]) ?_ (Nat.le_refl 1)⟩
    rw [haborted]
    exact ⟨by rw [timer], by rw [listener, Nat.sub_self]⟩
  | stopped taken phase aborted =>
    rw [unaborted] at aborted
    cases aborted
  | finished taken phase now idle bound =>
    have hk : (none : Signal).isNone.toNat = 1 := rfl
    rw [unaborted, hk] at bound
    have haborted : s.abort reason = { s with signal := some reason } := by rw [Sleep.abort, phase]
    exact ⟨0, by omega, .finished taken.abort (by rw [haborted, phase]) (by rw [haborted, now])
      (by rw [haborted]; exact idle) (by rw [haborted]; exact Nat.le_refl 0)⟩
  | cancelled taken phase aborted =>
    rw [unaborted] at aborted
    cases aborted

/-- **A moment leads from one of the places of a wait to another**, and there are fewer to come. -/
theorem Stands.step (hn : n < 2 ^ 53) (h : Stands n s k) (comes : Comes s m s') :
    ∃ k', k' < k ∧ Stands n s' k' := by
  cases comes with
  | aborts reason _ unaborted => exact stands_abort h unaborted
  | resumes phase =>
    cases h with
    | ready taken phase' whole now idle bound =>
      obtain rfl := Phase.ready.inj (phase.symm.trans phase')
      obtain ⟨k', hlt, hs⟩ := stands_resume hn taken whole now idle
      exact ⟨k', by omega, hs⟩
    | _ => simp_all
  | @passes time _ _ phase later early =>
    cases h with
    | @asleep r ks _ taken phase' whole now unaborted timer listener bound =>
      obtain ⟨hdue, -⟩ := Phase.asleep.inj (phase.symm.trans phase')
      rw [hdue] at early
      refine ⟨k - 1, by omega, .asleep (taken.of_delays rfl) phase' whole early unaborted timer listener ?_⟩
      show ks.sum * stepsPerOne - time + 1 + (ahead r + 1) ≤ k - 1
      omega
    | _ => simp_all
  | fires phase =>
    cases h with
    | asleep taken phase' whole now unaborted timer listener bound =>
      obtain ⟨hdue, rfl⟩ := Phase.asleep.inj (phase.symm.trans phase')
      refine ⟨k - 1, by omega, .ready (taken.of_delays rfl) rfl whole hdue ⟨?_, ?_⟩ ?_⟩
      · show s.timers - 1 = 0
        rw [timer]
      · show s.listeners - s.listens.toNat = 0
        rw [listener, Nat.sub_self]
      · show _ + s.signal.isNone.toNat ≤ k - 1
        have := Bool.toNat_le s.signal.isNone
        omega
    | _ => simp_all
  | rejects phase aborted =>
    cases h with
    | stopped taken _ _ idle bound =>
      exact ⟨0, by omega, .cancelled (taken.of_delays rfl) rfl aborted idle⟩
    | _ => simp_all

/-- As long as a wait is not settled something comes to it by itself. -/
theorem Stands.lively (h : Stands n s k) (unsettled : s.isSettled = false) :
    ∃ m s', s.step m = some s' ∧ ∀ reason, m ≠ .aborts reason := by
  cases h with
  | ready _ phase =>
    refine ⟨.resumes, _, step_eq_some.2 (.resumes phase), ?_⟩
    intro reason h
    cases h
  | asleep _ phase _ now =>
    rcases Nat.lt_or_eq_of_le now with later | due
    · refine ⟨.passes _, _, step_eq_some.2 (.passes phase later (Nat.le_refl _)), ?_⟩
      intro reason h
      cases h
    · refine ⟨.fires, _, step_eq_some.2 (.fires (due ▸ phase)), ?_⟩
      intro reason h
      cases h
  | stopped _ phase aborted =>
    refine ⟨.rejects, _, step_eq_some.2 (.rejects phase aborted), ?_⟩
    intro reason h
    cases h
  | finished _ phase => simp [isSettled, phase] at unsettled
  | cancelled _ phase => simp [isSettled, phase] at unsettled

/-! ## After an abort -/

/-- A wait whose signal was aborted at an earlier place: since then no time has passed, no timer was
    set, and if it is settled, it is as cancelled. -/
structure Broken (reason : AbortReason) (s s' : Sleep) : Prop where
  now : s'.now = s.now
  delays : s'.delays = s.delays
  aborted : s'.signal = some reason
  phase : (∃ rest, s'.phase = .ready rest) ∨ s'.phase = .stopped ∨
    s'.phase = .settled (.cancelled (.cancelledBy reason))

theorem broken_abort (unsettled : s.isSettled = false) : Broken reason s (s.abort reason) := by
  rw [abort]
  cases hphase : s.phase with
  | asleep due rest => exact ⟨rfl, rfl, rfl, .inr (.inl rfl)⟩
  | ready rest => exact ⟨rfl, rfl, rfl, .inl ⟨rest, rfl⟩⟩
  | stopped => exact ⟨rfl, rfl, rfl, .inr (.inl rfl)⟩
  | settled result => simp [isSettled, hphase] at unsettled

theorem Broken.step {s₁ s₂ : Sleep} (h : Broken reason s s₁) (comes : Comes s₁ m s₂) : Broken reason s s₂ := by
  obtain ⟨now, delays, aborted, phase⟩ := h
  cases comes with
  | resumes _ =>
    rw [resume_aborted aborted]
    exact ⟨now, delays, aborted, .inr (.inr rfl)⟩
  | rejects _ aborted' =>
    rw [aborted] at aborted'
    cases aborted'
    exact ⟨now, delays, aborted, .inr (.inr rfl)⟩
  | aborts _ _ unaborted =>
    rw [aborted] at unaborted
    cases unaborted
  | passes phase' => simp [phase'] at phase
  | fires phase' => simp [phase'] at phase

/-! ## A whole wait -/

theorem after_append (ms ms' : List Moment) : s.after (ms ++ ms') = (s.after ms).bind fun s => s.after ms' := by
  induction ms generalizing s with
  | nil => rfl
  | cons m ms ih =>
    rw [List.cons_append, after, after, Option.bind_assoc]
    exact congrArg (Option.bind (s.step m)) (funext fun _ => ih)

theorem after_cons (h : s.after (m :: ms) = some s') : ∃ s₁, Comes s m s₁ ∧ s₁.after ms = some s' := by
  obtain ⟨s₁, hstep, hafter⟩ := Option.bind_eq_some_iff.1 h
  exact ⟨s₁, step_eq_some.1 hstep, hafter⟩

/-- **A wait stands at one of its places whatever has come to it**, and no more can have come than
    was to come. -/
theorem Stands.after (hn : n < 2 ^ 53) (h : Stands n s k) (hafter : s.after ms = some s') :
    ∃ k', ms.length + k' ≤ k ∧ Stands n s' k' := by
  induction ms generalizing s k with
  | nil =>
    cases hafter
    exact ⟨k, by rw [List.length_nil]; omega, h⟩
  | cons m ms ih =>
    obtain ⟨s₁, comes, hrest⟩ := after_cons hafter
    obtain ⟨k₁, hlt, h₁⟩ := h.step hn comes
    obtain ⟨k', hle, h'⟩ := ih h₁ hrest
    exact ⟨k', by rw [List.length_cons]; omega, h'⟩

theorem Broken.after {s₁ s₂ : Sleep} (h : Broken reason s s₁) (hafter : s₁.after ms = some s₂) :
    Broken reason s s₂ := by
  induction ms generalizing s₁ with
  | nil =>
    cases hafter
    exact h
  | cons m ms ih =>
    obtain ⟨_, comes, hrest⟩ := after_cons hafter
    exact ih (h.step comes) hrest

/-- The signal of a wait is the one that it began with unless an abort has come. -/
theorem signal_after (hafter : s.after ms = some s') (h : ∀ reason, .aborts reason ∉ ms) :
    s'.signal = s.signal := by
  induction ms generalizing s with
  | nil =>
    cases hafter
    rfl
  | cons m ms ih =>
    obtain ⟨s₁, comes, hrest⟩ := after_cons hafter
    rw [ih hrest fun reason hm => h reason (List.mem_cons_of_mem m hm)]
    cases comes with
    | aborts reason => exact absurd List.mem_cons_self (h reason)
    | resumes _ =>
      rw [resume]
      split
      · rfl
      · split <;> rfl
    | _ => rfl

/-- **An abort before the end is the last thing that counts.** -/
theorem broken_after {x : Double} {listens : Bool} {before later : List Moment} {s₁ : Sleep}
    (hbefore : (start listens x).after before = some s₁) (unsettled : s₁.isSettled = false)
    (hafter : (start listens x).after (before ++ .aborts reason :: later) = some s) : Broken reason s₁ s := by
  rw [after_append, hbefore, Option.bind_some] at hafter
  obtain ⟨s₂, comes, hlater⟩ := after_cons hafter
  cases comes with
  | aborts _ _ _ => exact (broken_abort unsettled).after hlater

end Sleep

end Lifecycle
