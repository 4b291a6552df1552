import Lifecycle.Call.Playback
import Lifecycle.Proofs.Call.Settled

/- The calls of a scripted endpoint among those of functions.

   An endpoint that answers at once or never is one function among others. What a run is given for a
   call of it is what the race comes to under the abort that the clock has in store (`Clock.abort?`):
   the clock tells whether that or the timer is first (`earliest_firstEvent`), and an answer that is
   there wins over both. So the call and the race settle alike (`call_settled`). -/
namespace Lifecycle

/-! ## Scripted endpoints -/

/-- How an answer that comes at once or never settles a promise. -/
def EndpointAnswer.own : EndpointAnswer → Option (Nat × Settlement)
  | .reply r => some (0, .output r)
  | .refuse v => some (0, .refusal v)
  | .silence => none

theorem EndpointAnswer.own_atOnce (a : EndpointAnswer) : ∀ settled ∈ a.own, settled.1 = 0 := by
  cases a with
  | reply r => rintro _ ⟨⟩; rfl
  | refuse v => rintro _ ⟨⟩; rfl
  | silence => nofun

namespace Clock

variable {c : Clock} {delay : Double}

/-- The abort that a clock has in store for a call, counted from the call. One that is due by now
    comes as soon as time passes. -/
def abort? (c : Clock) : Option (Nat × AbortReason) :=
  match c.planned with
  | some (.afterTimers count, reason) => if count ≤ c.fired then some (1, reason) else none
  | some (.atTime steps, reason) => some (max 1 (steps - c.now), reason)
  | none => none

theorem abort?_pos (c : Clock) : ∀ abort ∈ c.abort?, 0 < abort.1 := by
  rintro ⟨time, reason⟩ h
  unfold abort? at h
  split at h
  · split at h <;> cases h
    exact Nat.one_pos
  · cases h
    exact Nat.lt_of_lt_of_le Nat.one_pos (Nat.le_max_left _ _)
  · cases h

/-- The abort in store is the one that is due before a timer fires, or it comes no sooner. -/
theorem abort?_cases (c : Clock) (long : 1 < length delay) :
    (∃ time reason, c.due? delay = some reason ∧ c.abort? = some (time, reason) ∧
      time < length delay) ∨
    (c.due? delay = none ∧ ∀ abort ∈ c.abort?, length delay ≤ abort.1) := by
  unfold due? abort?
  cases c.planned with
  | none => exact .inr ⟨rfl, nofun⟩
  | some planned =>
    obtain ⟨moment, reason⟩ := planned
    cases moment with
    | afterTimers count =>
      by_cases hcount : count ≤ c.fired
      · exact .inl ⟨1, reason, if_pos hcount, if_pos hcount, long⟩
      · exact .inr ⟨if_neg hcount, by simp only [if_neg hcount]; nofun⟩
    | atTime steps =>
      by_cases hsteps : steps < c.now + length delay
      · exact .inl ⟨_, reason, if_pos hsteps, rfl, by omega⟩
      · refine .inr ⟨if_neg hsteps, ?_⟩
        rintro _ ⟨⟩
        show length delay ≤ max 1 (steps - c.now)
        omega

end Clock

namespace Playback

theorem earliest_firstEvent {c : Clock} {timeoutMs : Double} (a : EndpointAnswer)
    (long : 1 < Clock.length timeoutMs) (apart : ∀ abort ∈ c.abort?, abort.1 ≠ Clock.length timeoutMs) :
    ∃ start, Earliest a.own (Clock.length timeoutMs) c.abort? start
      (firstEvent (c.set timeoutMs) timeoutMs a).2 := by
  have positive : 0 < Clock.length timeoutMs := Nat.lt_trans Nat.one_pos long
  cases a with
  | reply reply => exact ⟨0, .own (x := .output reply) rfl positive c.abort?_pos⟩
  | refuse value => exact ⟨0, .own (x := .refusal value) rfl positive c.abort?_pos⟩
  | silence =>
    show ∃ start, Earliest none _ _ start (eventOf ((c.set timeoutMs).pass timeoutMs).2)
    have hdue : (c.set timeoutMs).due? timeoutMs = c.due? timeoutMs := rfl
    rw [Clock.pass, hdue]
    obtain ⟨time, reason, due, planned, first⟩ | ⟨due, later⟩ := c.abort?_cases long
    · rw [due]
      exact ⟨time, .aborted planned (.inr nofun) first⟩
    · rw [due]
      refine ⟨_, .deadline nofun fun abort habort => ?_⟩
      exact Nat.lt_of_le_of_ne (later abort habort) (apart abort habort).symm

/-- **A call of a scripted endpoint comes to what the call of a function does** that settles as the
    endpoint answers, however it reacts to its signal, and sends as many requests as there are calls
    of the function. -/
theorem call_settled (e : Endpoint) (p : Playback) (target : Target) (request : Request)
    {f : Transport} (own : f.own = (answer e p.sent.length).own)
    (deadline : Race.deadlineTime e.timeoutMs = Clock.length e.timeoutMs)
    (apart : ∀ abort ∈ p.clock.abort?, abort.1 ≠ Clock.length e.timeoutMs) :
    ∃ start, ∀ time, start ≤ time →
      let r := Race.after f target e.timeoutMs p.clock.signal p.clock.abort? time
      r.Settled (call e p target request).2 ∧
        (call e p target request).1.sent.length = p.sent.length + r.sent := by
  dsimp only
  simp only [Race.sent_after]
  cases hsignal : p.clock.signal with
  | some reason =>
    refine ⟨0, fun time _ => ?_⟩
    rw [call, hsignal]
    exact ⟨Race.settled_aborted f target e.timeoutMs reason p.clock.abort? time, rfl⟩
  | none =>
    have long : 1 < Clock.length e.timeoutMs := by
      rw [← deadline]
      exact Nat.lt_of_lt_of_le (by decide +kernel) (Race.deadlineTime_long e.timeoutMs)
    obtain ⟨start, first⟩ := earliest_firstEvent (answer e p.sent.length) long apart
    have times : Apart f.own (Race.deadlineTime e.timeoutMs) p.clock.abort? := by
      rw [own, deadline]
      refine ⟨?_, apart, ?_⟩
      · intro settled hsettled
        have := EndpointAnswer.own_atOnce _ settled hsettled
        omega
      · intro settled hsettled abort _ late
        rw [EndpointAnswer.own_atOnce _ settled hsettled]
        exact late.symm
    obtain ⟨start', event, first', hafter⟩ := Race.after_cases f target e.timeoutMs times
    rw [own, deadline] at first'
    obtain ⟨rfl, rfl⟩ := first.unique first'
    refine ⟨start, fun time due => ?_⟩
    rw [call, hsignal]
    refine ⟨(hafter time).2 due, ?_⟩
    exact List.length_append

end Playback
end Lifecycle
