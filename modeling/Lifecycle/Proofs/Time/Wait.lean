import Lifecycle.Proofs.Time.Sleep

/- A wait on a clock is one of the ways that a wait can go.

   The clock lets a whole slice pass at once, or as much of it as there is before a planned abort.
   Moment by moment that is a wait that resumes, lets the time pass and then is woken by its timer or
   by the abort (`waitWith_mirrors`), and it has timers enough to come to its end (`Suffices`). So
   what holds of a wait whatever comes to it (`wait_exact`) holds of every wait on a clock. -/
namespace Lifecycle

open Double (stepsPerOne)

theorem Clock.abortTime_range {c : Clock} {delay : Double} {reason : AbortReason}
    (h : c.due? delay = some reason) : c.now ≤ c.abortTime ∧ c.abortTime ≤ c.now + Clock.length delay := by
  rw [due?] at h
  rw [abortTime]
  split at h
  · rename_i planned
    rw [planned]
    exact ⟨Nat.le_refl _, Nat.le_add_right _ _⟩
  · rename_i planned
    rw [planned]
    split at h
    · rename_i early
      exact ⟨Nat.le_max_left _ _, Nat.max_le.2 ⟨Nat.le_add_right _ _, early.le⟩⟩
    · cases h
  · cases h

namespace Sleep

variable {n : Nat} {s s₁ s₂ : Sleep} {m : Moment} {c c₀ : Clock} {rest : Double}

/-! ## Reached places -/

/-- Whether some moments lead from one place of a wait to another. -/
def Reaches (s s' : Sleep) : Prop := ∃ ms, s.after ms = some s'

theorem Reaches.of_comes (h : Comes s m s₁) : Reaches s s₁ := by
  refine ⟨[m], ?_⟩
  rw [Sleep.after, step_eq_some.2 h]
  rfl

theorem Reaches.trans (h : Reaches s s₁) (h' : Reaches s₁ s₂) : Reaches s s₂ := by
  obtain ⟨ms, hms⟩ := h
  obtain ⟨ms', hms'⟩ := h'
  exact ⟨ms ++ ms', by rw [after_append, hms, Option.bind_some, hms']⟩

/-- In a slice the time can be any up to the one at which its timer is due. -/
theorem reaches_time {due time : Nat} (phase : s.phase = .asleep due rest) (later : s.now ≤ time)
    (early : time ≤ due) : Reaches s { s with now := time } := by
  rcases Nat.lt_or_eq_of_le later with hlt | rfl
  · exact .of_comes (.passes phase hlt early)
  · exact ⟨[], rfl⟩

/-! ## The clock and the wait -/

/-- A clock that shows a wait that began with it as another clock: the same time has passed, the same
    timers were set, as many of them are there, and the signal is the same. -/
structure Mirrors (c₀ : Clock) (s : Sleep) (c : Clock) : Prop where
  now : c.now = c₀.now + s.now
  delays : c.delays = c₀.delays ++ s.delays
  timers : c.pending = c₀.pending + s.timers
  signal : c.signal = s.signal

/-- A number of timers that is enough for the rest of a wait, or for a wait up to its planned abort. -/
inductive Suffices (fuel : Nat) (c : Clock) (rest : Double) : Prop where
  | slices {r : Nat} (whole : rest.toInt? = some (r : Int)) (hr : r < 2 ^ 53) (h : Wait.slices r < fuel)
  | abort {count : Nat} {reason : AbortReason} (planned : c.planned = some (.afterTimers count, reason))
      (some : 0 < fuel) (h : count + 2 ≤ fuel + c.fired)

theorem suffices_timers {x : Double} (whole : x.toInt? = some (n : Int)) (hn : n < 2 ^ 53) (c : Clock) :
    Suffices (Wait.timers c x) c x := by
  have hsteps := Double.steps?_of_toInt? whole
  rw [Wait.timers, hsteps]
  have hslices : Wait.slices n ≤ n / Wait.maxDelay + 1 := by
    rw [Wait.slices, ← Nat.add_div_right _ Wait.maxDelay_pos]
    exact Nat.div_le_div_right (by omega)
  have hquotient : ((n : Int) * stepsPerOne).toNat / (Wait.maxDelay * stepsPerOne) = n / Wait.maxDelay := by
    rw [← Int.natCast_mul, Int.toNat_natCast, Nat.mul_div_mul_right _ _ Double.stepsPerOne_pos]
  split
  · rename_i count reason _ planned
    exact .abort planned (Nat.succ_pos _) (Nat.le_add_right _ _)
  · rename_i steps heq _
    cases heq
    rw [hquotient]
    exact .slices whole hn (by omega)
  · rename_i heq _
    cases heq

theorem Suffices.fired {fuel : Nat} {delay : Double} {c' : Clock} (h : Suffices (fuel + 1) c rest)
    (positive : Double.zero.lt rest = true) (undue : c.due? delay = none) (planned : c'.planned = c.planned)
    (fired : c'.fired = c.fired + 1) : Suffices fuel c' (rest.sub (Wait.slice rest)) := by
  cases h with
  | @slices r whole hr h =>
    rw [Wait.zero_lt_iff whole, decide_eq_true_eq] at positive
    have hcount := Wait.slices_eq positive
    exact .slices (Double.toInt?_sub whole (Wait.toInt?_slice whole) (Nat.min_le_left _ _) hr) (by omega)
      (by omega)
  | @abort count reason planned' _ h =>
    have hlate : ¬ count ≤ c.fired := by
      intro hcount
      rw [Clock.due?, planned'] at undue
      simp only [hcount, if_true] at undue
      cases undue
    exact .abort (planned.trans planned') (by omega) (by omega)

variable {delay : Double} {reason : AbortReason}

theorem mirrors_fired (h : Mirrors c₀ s c) (phase : s.phase = .asleep (s.now + Clock.length delay) rest)
    (undue : c.due? delay = none) (timer : 0 < s.timers) :
    ∃ s', Reaches s s' ∧ s'.phase = .ready rest ∧ s'.listens = s.listens ∧ Mirrors c₀ s' (c.pass delay).1 := by
  refine ⟨_, (reaches_time phase (Nat.le_add_right _ _) (Nat.le_refl _)).trans (.of_comes (.fires phase)),
    rfl, rfl, ?_⟩
  rw [Clock.pass, undue]
  refine ⟨?_, h.delays, ?_, h.signal⟩
  · show c.now + Clock.length delay = c₀.now + (s.now + Clock.length delay)
    rw [h.now, Nat.add_assoc]
  · show c.pending - 1 = c₀.pending + (s.timers - 1)
    rw [h.timers, Nat.add_sub_assoc timer]

theorem mirrors_aborted (h : Mirrors c₀ s c) (phase : s.phase = .asleep (s.now + Clock.length delay) rest)
    (due : c.due? delay = some reason) (listens : s.listens = true) (unaborted : s.signal = none)
    (timer : 0 < s.timers) :
    ∃ s', Reaches s s' ∧ s'.phase = .settled (.cancelled (.cancelledBy reason)) ∧
      Mirrors c₀ s' (c.pass delay).1.clear := by
  obtain ⟨hlater, hearly⟩ := Clock.abortTime_range due
  rw [h.now] at hlater hearly
  obtain ⟨time, htime⟩ := Nat.exists_eq_add_of_le ((Nat.le_add_right _ _).trans hlater)
  rw [htime] at hlater hearly
  have hpassed : Reaches s { s with now := time } := reaches_time phase (by omega) (by omega)
  have haborts : Comes { s with now := time } (.aborts reason) (abort { s with now := time } reason) :=
    .aborts reason listens unaborted
  have habort : abort { s with now := time } reason = { s with
      now := time
      signal := some reason
      timers := s.timers - 1
      listeners := s.listeners - s.listens.toNat
      phase := .stopped } := by rw [abort, phase]
  rw [habort] at haborts
  refine ⟨_, (hpassed.trans (.of_comes haborts)).trans (.of_comes (.rejects rfl rfl)), rfl, ?_⟩
  rw [Clock.pass, due]
  refine ⟨htime, h.delays, ?_, rfl⟩
  show c.pending - 1 = c₀.pending + (s.timers - 1)
  rw [h.timers, Nat.add_sub_assoc timer]

theorem mirrors_settle (h : Mirrors c₀ s c) (result : WaitEnd) : Mirrors c₀ (s.settle result) c :=
  ⟨h.now, h.delays, h.timers, h.signal⟩

theorem mirrors_enter (h : Mirrors c₀ s c) (rest : Double) :
    Mirrors c₀ (s.enter rest) (c.set (Wait.slice rest)) := by
  refine ⟨h.now, ?_, ?_, h.signal⟩
  · show c.delays ++ _ = c₀.delays ++ (s.delays ++ _)
    rw [h.delays, List.append_assoc]
  · show c.pending + 1 = c₀.pending + (s.timers + 1)
    rw [h.timers, Nat.add_assoc]

/-- **A wait on a clock goes as a wait can go**, and comes to its end. -/
theorem waitWith_mirrors {fuel : Nat} (h : Mirrors c₀ s c) (phase : s.phase = .ready rest)
    (listens : s.listens = true) (enough : Suffices fuel c rest) :
    ∃ s', Reaches s s' ∧ s'.phase = .settled (Wait.waitWith fuel c rest).2 ∧
      Mirrors c₀ s' (Wait.waitWith fuel c rest).1 := by
  induction fuel generalizing c s rest with
  | zero =>
    cases enough with
    | slices _ _ h => exact absurd h (Nat.not_lt_zero _)
    | abort _ some => exact absurd some (Nat.not_lt_zero _)
  | succ fuel ih =>
    have hresumes : Reaches s (s.resume rest) := .of_comes (.resumes phase)
    rw [Wait.waitWith]
    cases hsignal : c.signal with
    | some reason =>
      rw [resume_aborted (h.signal.symm.trans hsignal)] at hresumes
      exact ⟨_, hresumes, rfl, mirrors_settle h _⟩
    | none =>
      have hunaborted : s.signal = none := h.signal.symm.trans hsignal
      cases hpositive : Double.zero.lt rest with
      | false =>
        rw [resume_zero hunaborted hpositive] at hresumes
        exact ⟨_, hresumes, rfl, mirrors_settle h _⟩
      | true =>
        rw [resume_positive hunaborted hpositive] at hresumes
        have henter := mirrors_enter h rest
        simp only [if_true]
        cases hdue : (c.set (Wait.slice rest)).due? (Wait.slice rest) with
        | some reason =>
          obtain ⟨s', hreaches, hphase, hmirrors⟩ :=
            mirrors_aborted henter rfl hdue listens hunaborted (Nat.succ_pos _)
          rw [Clock.pass, hdue] at hmirrors ⊢
          exact ⟨s', hresumes.trans hreaches, hphase, hmirrors⟩
        | none =>
          obtain ⟨s', hreaches, hphase, hlistens, hmirrors⟩ :=
            mirrors_fired henter rfl hdue (Nat.succ_pos _)
          rw [Clock.pass, hdue] at hmirrors ⊢
          obtain ⟨s'', hreaches', hend⟩ := ih hmirrors hphase (hlistens.trans listens)
            (enough.fired hpositive hdue rfl rfl)
          exact ⟨s'', (hresumes.trans hreaches).trans hreaches', hend⟩

/-- A wait on a clock begins as any wait, after an abort if the signal of the clock is aborted. -/
theorem wait_mirrors {x : Double} (whole : x.toInt? = some (n : Int)) (hn : n < 2 ^ 53) (c : Clock) :
    ∃ s, Reaches (start true x) s ∧ s.phase = .settled (Wait.wait c x).2 ∧ Mirrors c s (Wait.wait c x).1 := by
  have hstart : ∃ s, Reaches (start true x) s ∧ s.phase = .ready x ∧ s.listens = true ∧ Mirrors c s c := by
    cases hsignal : c.signal with
    | none => exact ⟨_, ⟨[], rfl⟩, rfl, rfl, rfl, (List.append_nil _).symm, rfl, hsignal⟩
    | some reason =>
      exact ⟨_, .of_comes (.aborts reason rfl rfl), rfl, rfl, rfl, (List.append_nil _).symm, rfl, hsignal⟩
  obtain ⟨s, hreaches, hphase, hlistens, hmirrors⟩ := hstart
  obtain ⟨s', hreaches', hend⟩ := waitWith_mirrors hmirrors hphase hlistens (suffices_timers whole hn c)
  exact ⟨s', hreaches.trans hreaches', hend⟩

/-! ## Any wait -/

/-- What is true of a wait for `n` milliseconds at any moment. Its timers are for one millisecond to
    the longest delay each, and there is one at most at a time; a wait that is over has set them for
    `n` milliseconds together, as few of them as can be, and ends when those have passed. A settled
    wait leaves neither timer nor listener behind, and any other goes on by itself. -/
structure Orderly (n : Nat) (s : Sleep) : Prop where
  delays : ∃ ks : List Nat, s.delays.map Double.toInt? = ks.map (fun k => some (k : Int)) ∧
    (∀ k ∈ ks, 1 ≤ k ∧ k ≤ Wait.maxDelay) ∧
    (s.phase = .settled .over → ks.sum = n ∧ ks.length = Wait.slices n)
  single : s.timers ≤ 1
  punctual : s.phase = .settled .over → s.now = n * stepsPerOne
  clean : s.isSettled = true → s.timers = 0 ∧ s.listeners = 0
  lively : s.isSettled = false → ∃ m s', s.step m = some s' ∧ ∀ reason, m ≠ .aborts reason

theorem Stands.orderly {k : Nat} (h : Stands n s k) : Orderly n s := by
  have lively := h.lively
  cases h with
  | ready taken phase _ _ idle =>
    exact ⟨⟨_, taken.delays, taken.range, by simp [phase]⟩, by rw [idle.1]; omega, by simp [phase],
      fun _ => idle, lively⟩
  | asleep taken phase _ _ _ timer =>
    exact ⟨⟨_, taken.delays, taken.range, by simp [phase]⟩, by rw [timer], by simp [phase],
      by simp [isSettled, phase], lively⟩
  | stopped taken phase _ idle =>
    exact ⟨⟨_, taken.delays, taken.range, by simp [phase]⟩, by rw [idle.1]; omega, by simp [phase],
      fun _ => idle, lively⟩
  | finished taken phase now idle =>
    have hcount : _ = Wait.slices n := taken.count
    rw [Wait.slices_zero] at hcount
    exact ⟨⟨_, taken.delays, taken.range, fun _ => ⟨taken.total, hcount⟩⟩, by rw [idle.1]; omega,
      fun _ => now, fun _ => idle, lively⟩
  | cancelled taken phase _ idle =>
    exact ⟨⟨_, taken.delays, taken.range, by simp [phase]⟩, by rw [idle.1]; omega, by simp [phase],
      fun _ => idle, lively⟩

/-- Without an abort a wait is settled as over and in no other way. -/
theorem Stands.over_of_unaborted {k : Nat} (h : Stands n s k) (unaborted : s.signal = none)
    {result : WaitEnd} (phase : s.phase = .settled result) : result = .over := by
  cases h with
  | finished _ phase' => exact Phase.settled.inj (phase.symm.trans phase')
  | stopped _ _ aborted =>
    rw [unaborted] at aborted
    cases aborted
  | cancelled _ _ aborted =>
    rw [unaborted] at aborted
    cases aborted
  | _ => simp_all

/-- **A wait is exact, and an abort cuts it short.** The wait is for a natural number of milliseconds
    up to 2^53 - 1, and anything can come to it in any order. It is orderly at every moment, and the
    moments are bounded in number. Without an abort it ends as over. An abort that comes before its
    end, at whatever place, leaves its time and its timers as they are and has it cancelled with
    the reason of the abort. A wait on a clock is one of those waits. -/
theorem wait_exact {x : Double} (whole : x.toInt? = some (n : Int)) (bound : n ≤ Literal.safeLimit) :
    (∀ listens ms s, (start listens x).after ms = some s →
      Orderly n s ∧ ms.length ≤ n * stepsPerOne + 2 * Wait.slices n + 2 ∧
      ((∀ reason, .aborts reason ∉ ms) → ∀ result, s.phase = .settled result → result = .over) ∧
      ∀ before reason later s₁, ms = before ++ .aborts reason :: later →
        (start listens x).after before = some s₁ → s₁.isSettled = false →
        s.now = s₁.now ∧ s.delays = s₁.delays ∧
          ∀ result, s.phase = .settled result → result = .cancelled (.cancelledBy reason)) ∧
    ∀ c : Clock, ∃ ms s, (start true x).after ms = some s ∧ s.phase = .settled (Wait.wait c x).2 ∧
      Mirrors c s (Wait.wait c x).1 := by
  have hn : n < 2 ^ 53 := by
    have := Literal.safeLimit_eq
    omega
  constructor
  · intro listens ms s hafter
    obtain ⟨k, hlength, hstands⟩ := (stands_start whole listens).after hn hafter
    refine ⟨hstands.orderly, by rw [ahead] at hlength; omega, ?_, ?_⟩
    · intro hnone result phase
      exact hstands.over_of_unaborted (signal_after hafter hnone) phase
    · rintro before reason later s₁ rfl hbefore unsettled
      have hbroken := broken_after hbefore unsettled hafter
      refine ⟨hbroken.now, hbroken.delays, ?_⟩
      intro result hresult
      obtain ⟨rest, hphase⟩ | hphase | hphase := hbroken.phase
      · rw [hphase] at hresult
        cases hresult
      · rw [hphase] at hresult
        cases hresult
      · exact Phase.settled.inj (hresult.symm.trans hphase)
  · intro c
    obtain ⟨s, ⟨ms, hms⟩, hphase, hmirrors⟩ := wait_mirrors whole hn c
    exact ⟨ms, s, hms, hphase, hmirrors⟩

/-- A wait for five seconds more than one timer can run takes two of them. An abort between the two
    leaves it at the first one. -/
theorem two_slices_waited :
    let n := Wait.maxDelay + 5000
    (Double.ofNat n).toInt? = some (n : Int) ∧ n ≤ Literal.safeLimit ∧
      (∃ ms s, (start true (.ofNat n)).after ms = some s ∧ s.phase = .settled .over ∧ Orderly n s ∧
        s.delays.map Double.toInt? = [some 2147483647, some 5000]) ∧
      ∃ ms s, (start true (.ofNat n)).after ms = some s ∧
        s.phase = .settled (.cancelled (.cancelledBy (.text "stop"))) ∧ Orderly n s ∧
        s.delays.map Double.toInt? = [some 2147483647] := by
  intro n
  have whole : (Double.ofNat n).toInt? = some (n : Int) := Double.toInt?_ofNat (by decide)
  have bound : n ≤ Literal.safeLimit := by decide
  obtain ⟨runs, -⟩ := wait_exact whole bound
  let first : List Moment := [.resumes, .passes (Wait.maxDelay * stepsPerOne), .fires]
  refine ⟨whole, bound, ?_, ?_⟩
  · let ms := first ++ [.resumes, .passes (n * stepsPerOne), .fires, .resumes]
    have hread : ((start true (.ofNat n)).after ms).map
        (fun s => (s.isSettled, s.delays.map Double.toInt?)) =
          some (true, [some 2147483647, some 5000]) := by decide +kernel
    obtain ⟨s, hafter, heq⟩ := Option.map_eq_some_iff.1 hread
    obtain ⟨hsettled, hdelays⟩ := Prod.mk.inj heq
    obtain ⟨orderly, -, unaborted, -⟩ := runs true ms s hafter
    obtain ⟨result, hphase⟩ := isSettled_iff.1 hsettled
    rw [unaborted (by simp [ms, first]) result hphase] at hphase
    exact ⟨ms, s, hafter, hphase, orderly, hdelays⟩
  · let ms := first ++ .aborts (.text "stop") :: [.resumes]
    have hread : ((start true (.ofNat n)).after ms).map
        (fun s => (s.isSettled, s.delays.map Double.toInt?)) = some (true, [some 2147483647]) := by
      decide +kernel
    have hbefore : ((start true (.ofNat n)).after first).map isSettled = some false := by decide +kernel
    obtain ⟨s, hafter, heq⟩ := Option.map_eq_some_iff.1 hread
    obtain ⟨s₁, hfirst, unsettled⟩ := Option.map_eq_some_iff.1 hbefore
    obtain ⟨hsettled, hdelays⟩ := Prod.mk.inj heq
    obtain ⟨orderly, -, -, aborted⟩ := runs true ms s hafter
    obtain ⟨result, hphase⟩ := isSettled_iff.1 hsettled
    have hresult := (aborted first (.text "stop") [.resumes] s₁ rfl hfirst unsettled).2.2 result hphase
    rw [hresult] at hphase
    exact ⟨ms, s, hafter, hphase, orderly, hdelays⟩

end Sleep

end Lifecycle
