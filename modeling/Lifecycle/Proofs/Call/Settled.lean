import Lifecycle.Proofs.Call.Race
import Lifecycle.Proofs.Number.Grid

/- A call settles once, by what comes first.

   Three things can happen to a call: its function settles, its deadline passes, its caller aborts.
   They stand on the agenda of a call that waits (`Waiting`), in the order of their times, and the
   first of them (`Earliest`) settles the call in its turn, with what it is for the call. An
   abort in the turn of the call comes before the function is called, and a function that settles as
   soon as it is called does so in that turn. -/
namespace Lifecycle

/-! ## What comes first -/

def Settlement.event : Settlement → CallEvent
  | .output reply => .answered reply
  | .refusal value => .refused value

def Turn.event : Turn → CallEvent
  | .settles x => x.event
  | .deadline => .deadline
  | .aborts reason => .aborted reason

/-- How a function that is called with an intact signal settles its promise by itself, and when. What
    it throws at once comes to the same. -/
def Transport.own (f : Transport) : Option (Nat × Settlement) :=
  match f none with
  | .throws value => some (0, .refusal value)
  | .promises own _ => own

/-- What happens first in a call, and when: the function settles its promise by itself, the deadline
    passes, or the caller's signal is aborted. An abort at time zero comes before the function is
    called. -/
inductive Earliest (own : Option (Nat × Settlement)) (deadline : Nat)
    (planned : Option (Nat × AbortReason)) : Nat → CallEvent → Prop where
  | own {time : Nat} {x : Settlement} (h : own = some (time, x)) (intime : time < deadline)
      (unaborted : ∀ abort ∈ planned, time < abort.1) : Earliest own deadline planned time x.event
  | deadline (unsettled : ∀ settled ∈ own, deadline < settled.1)
      (unaborted : ∀ abort ∈ planned, deadline < abort.1) :
      Earliest own deadline planned deadline .deadline
  | aborted {time : Nat} {reason : AbortReason} (h : planned = some (time, reason))
      (unsettled : time = 0 ∨ ∀ settled ∈ own, time < settled.1) (intime : time < deadline) :
      Earliest own deadline planned time (.aborted reason)

/-- Whether the three times of a call are apart. -/
structure Apart (own : Option (Nat × Settlement)) (deadline : Nat)
    (planned : Option (Nat × AbortReason)) : Prop where
  settled : ∀ settled ∈ own, settled.1 ≠ deadline
  aborted : ∀ abort ∈ planned, abort.1 ≠ deadline
  both : ∀ settled ∈ own, ∀ abort ∈ planned, abort.1 ≠ 0 → settled.1 ≠ abort.1

variable {own : Option (Nat × Settlement)} {deadline : Nat} {planned : Option (Nat × AbortReason)}

theorem Earliest.unique {time time' : Nat} {event event' : CallEvent}
    (h : Earliest own deadline planned time event) (h' : Earliest own deadline planned time' event') :
    time = time' ∧ event = event' := by
  cases h with
  | own h intime unaborted =>
    cases h' with
    | own h' => rw [h] at h'; cases h'; exact ⟨rfl, rfl⟩
    | deadline unsettled => have := unsettled _ h; omega
    | aborted h' unsettled =>
      have := unaborted _ h'
      obtain early | unsettled := unsettled
      · omega
      · have := unsettled _ h
        omega
  | deadline unsettled unaborted =>
    cases h' with
    | own h' => have := unsettled _ h'; omega
    | deadline => exact ⟨rfl, rfl⟩
    | aborted h' => have := unaborted _ h'; omega
  | aborted h unsettled intime =>
    cases h' with
    | own h' _ unaborted =>
      have := unaborted _ h
      obtain early | unsettled := unsettled
      · omega
      · have := unsettled _ h'
        omega
    | deadline _ unaborted => have := unaborted _ h; omega
    | aborted h' => rw [h] at h'; cases h'; exact ⟨rfl, rfl⟩

namespace Agenda

variable {agenda : Agenda} {time : Nat} {turn : Turn}

theorem mem_enter {entry : Nat × Turn} :
    entry ∈ agenda.enter time turn ↔ entry = (time, turn) ∨ entry ∈ agenda := by
  induction agenda with
  | nil => exact List.mem_cons
  | cons first rest ih =>
    rw [enter]
    split
    · exact List.mem_cons
    · rw [List.mem_cons, ih, List.mem_cons, or_left_comm]

/-- Whether turns are in the order of their times. -/
def InOrder (agenda : Agenda) : Prop := agenda.Pairwise fun a b => a.1 ≤ b.1

theorem InOrder.enter (h : agenda.InOrder) : (agenda.enter time turn).InOrder := by
  induction h with
  | nil => exact List.pairwise_singleton _ _
  | @cons first rest hfirst hrest ih =>
    rw [Agenda.enter]
    split
    · rename_i hlt
      refine .cons ?_ (.cons hfirst hrest)
      intro entry hentry
      obtain rfl | hentry := List.mem_cons.1 hentry
      · exact Nat.le_of_lt hlt
      · exact Nat.le_trans (Nat.le_of_lt hlt) (hfirst entry hentry)
    · rename_i hle
      refine .cons ?_ ih
      intro entry hentry
      obtain rfl | hentry := mem_enter.1 hentry
      · exact Nat.le_of_not_lt hle
      · exact hfirst entry hentry

end Agenda

/-- The turns that a call has to expect. -/
inductive Expected (own : Option (Nat × Settlement)) (deadline : Nat)
    (planned : Option (Nat × AbortReason)) : Nat × Turn → Prop where
  | own {time : Nat} {x : Settlement} (h : own = some (time, x)) :
      Expected own deadline planned (time, .settles x)
  | deadline : Expected own deadline planned (deadline, .deadline)
  | aborted {time : Nat} {reason : AbortReason} (h : planned = some (time, reason)) :
      Expected own deadline planned (time, .aborts reason)

namespace Expected

variable {time : Nat} {entry : Nat × Turn}

theorem deadline_iff : Expected none deadline none entry ↔ entry = (deadline, .deadline) := by
  constructor
  · intro h
    cases h with
    | own h => cases h
    | deadline => rfl
    | aborted h => cases h
  · rintro rfl
    exact .deadline

theorem own_iff {x : Settlement} : Expected (some (time, x)) deadline planned entry ↔
    entry = (time, .settles x) ∨ Expected none deadline planned entry := by
  constructor
  · intro h
    cases h with
    | own h => cases h; exact .inl rfl
    | deadline => exact .inr .deadline
    | aborted h => exact .inr (.aborted h)
  · rintro (rfl | h)
    · exact .own rfl
    · cases h with
      | own h => cases h
      | deadline => exact .deadline
      | aborted h => exact .aborted h

theorem aborted_iff {reason : AbortReason} : Expected own deadline (some (time, reason)) entry ↔
    entry = (time, .aborts reason) ∨ Expected own deadline none entry := by
  constructor
  · intro h
    cases h with
    | own h => exact .inr (.own h)
    | deadline => exact .inr .deadline
    | aborted h => cases h; exact .inl rfl
  · rintro (rfl | h)
    · exact .aborted rfl
    · cases h with
      | own h => exact .own h
      | deadline => exact .deadline
      | aborted h => cases h

end Expected

namespace Race

variable {f : Transport} {r : Race} {v : CallResult} {target : Target} {timeoutMs : Double}

/-- A call that nothing has happened to yet. -/
structure Idle (target : Target) (timeoutMs : Double) (r : Race) : Prop where
  target : r.target = target
  timeoutMs : r.timeoutMs = timeoutMs
  signal : r.signal = none
  controller : r.controller = none
  timedOut : r.timedOut = false
  listening : r.listening = true
  answered : r.answered = false
  raced : r.raced = false
  results : r.results = []

/-- What is to come of a call, and how its function reacts, does not change that it is idle. -/
theorem Idle.frame (h : Idle target timeoutMs r) (now : Nat) (agenda : Agenda) (jobs : List Job)
    (sent : Nat) (reaction : AbortReason → Option Reaction) :
    Idle target timeoutMs
      { r with now := now, agenda := agenda, jobs := jobs, sent := sent, reaction := reaction } :=
  ⟨h.target, h.timeoutMs, h.signal, h.controller, h.timedOut, h.listening, h.answered, h.raced,
    h.results⟩

/-- A settlement that decides the race of an idle call is told for what it is. -/
theorem Idle.verdict (h : Idle target timeoutMs r) (x : Settlement) :
    r.classify x = (Exchange.begin target timeoutMs none).settlement x.event := by
  cases x with
  | output reply => rfl
  | refusal value =>
    rw [classify, h.signal, h.timedOut, h.target]
    rfl

theorem Idle.rouse (h : Idle target timeoutMs r) (hj : r.jobs = []) (turn : Turn) :
    Settled ((Exchange.begin target timeoutMs none).settlement turn.event) (drain f (r.rouse turn)) := by
  have quiet : ∀ j ∈ r.jobs, j.isEarly = true ∧ j.isRace = false := by
    rw [hj]
    exact List.forall_mem_nil _
  cases turn with
  | settles x => exact settled_answer h.answered h.raced h.results hj x (h.verdict x)
  | deadline =>
    have verdict : ({ r with timedOut := true } : Race).classify
        (.refusal (deadlineReason r.timeoutMs)) = .failed (Exchange.timeoutError timeoutMs) := by
      simp [classify, h.signal, h.timeoutMs]
    exact (bound_interrupt (r := { r with timedOut := true }) h.controller h.raced h.results quiet _
      verdict).drain
  | aborts reason =>
    apply Bound.drain
    rw [Race.rouse, Race.abort, h.signal, h.listening]
    exact bound_interrupt (r := { r with signal := some reason, listening := false })
      h.controller h.raced h.results quiet reason rfl

/-- An idle call with all that it has to expect on its agenda. -/
structure Waiting (own : Option (Nat × Settlement)) (deadline : Nat)
    (planned : Option (Nat × AbortReason)) (target : Target) (timeoutMs : Double) (r : Race) :
    Prop where
  idle : Idle target timeoutMs r
  order : r.agenda.InOrder
  turns : ∀ entry, entry ∈ r.agenda ↔ Expected own deadline planned entry

theorem Waiting.earliest {start : Nat} {turn : Turn} {rest : Agenda}
    (h : Waiting own deadline planned target timeoutMs r) (apart : Apart own deadline planned)
    (late : ∀ abort ∈ planned, abort.1 ≠ 0) (ha : r.agenda = (start, turn) :: rest) :
    Earliest own deadline planned start turn.event := by
  have order := h.order
  have turns := h.turns
  rw [ha] at order turns
  have first : ∀ entry, Expected own deadline planned entry → start ≤ entry.1 := by
    intro entry hentry
    obtain rfl | hentry := List.mem_cons.1 ((turns entry).2 hentry)
    · exact Nat.le_refl _
    · exact (List.pairwise_cons.1 order).1 entry hentry
  have intime := first _ .deadline
  have expected := (turns (start, turn)).1 List.mem_cons_self
  cases expected with
  | own hown =>
    have := apart.settled _ hown
    refine .own hown (by omega) ?_
    intro abort habort
    have := first _ (.aborted habort)
    have := apart.both _ hown _ habort (late _ habort)
    omega
  | deadline =>
    refine .deadline ?_ ?_
    · intro settled hsettled
      have := first _ (.own hsettled)
      have := apart.settled _ hsettled
      omega
    · intro abort habort
      have := first _ (.aborted habort)
      have := apart.aborted _ habort
      omega
  | aborted hplanned =>
    have := apart.aborted _ hplanned
    refine .aborted hplanned (.inr ?_) (by omega)
    intro settled hsettled
    have := first _ (.own hsettled)
    have := apart.both _ hsettled _ hplanned (late _ hplanned)
    omega

/-! ## The turn of the call -/

theorem Waiting.schedule {delay : Nat} {turn : Turn} {own' : Option (Nat × Settlement)}
    {planned' : Option (Nat × AbortReason)}
    (h : Waiting own deadline planned target timeoutMs r)
    (more : ∀ entry, Expected own' deadline planned' entry ↔
      entry = (r.now + delay, turn) ∨ Expected own deadline planned entry) :
    Waiting own' deadline planned' target timeoutMs (r.schedule delay turn) := by
  refine ⟨h.idle.frame _ _ _ _ _, h.order.enter, fun entry => ?_⟩
  rw [more, ← h.turns]
  exact Agenda.mem_enter

theorem idle_begin (target : Target) (timeoutMs : Double) :
    Idle target timeoutMs (begin target timeoutMs none) :=
  ⟨rfl, rfl, rfl, rfl, rfl, rfl, rfl, rfl, rfl⟩

/-- A call that is made waits for its function to be called, with its deadline set and the abort to
    come. -/
theorem waiting_plan (target : Target) (timeoutMs : Double)
    (late : ∀ abort ∈ planned, abort.1 ≠ 0) :
    Waiting none (deadlineTime timeoutMs) planned target timeoutMs
        ((begin target timeoutMs none).plan planned) ∧
      ((begin target timeoutMs none).plan planned).jobs = [.send] ∧
      ((begin target timeoutMs none).plan planned).now = 0 := by
  have unplanned : Waiting none (deadlineTime timeoutMs) none target timeoutMs
      (begin target timeoutMs none) := by
    refine ⟨idle_begin target timeoutMs, List.pairwise_singleton _ _, fun entry => ?_⟩
    rw [Expected.deadline_iff]
    exact List.mem_singleton
  cases planned with
  | none => exact ⟨unplanned, rfl, rfl⟩
  | some abort =>
    obtain ⟨time, reason⟩ := abort
    cases time with
    | zero => exact absurd rfl (late _ rfl)
    | succ delay =>
      refine ⟨unplanned.schedule fun entry => ?_, rfl, rfl⟩
      show _ ↔ entry = (0 + (delay + 1), _) ∨ _
      rw [Nat.zero_add]
      exact Expected.aborted_iff

theorem settled_send {x : Settlement} (h : Idle target timeoutMs r) (hj : r.jobs = [.send])
    (own : f.own = some (0, x)) :
    Settled ((Exchange.begin target timeoutMs none).settlement x.event) (drain f r) := by
  have handed : f r.controller = f none := by rw [h.controller]
  rw [drain_cons hj, perform, send]
  dsimp only
  rw [handed]
  rw [Transport.own] at own
  cases hf : f none with
  | throws value =>
    rw [hf] at own
    cases own
    exact Bound.drain (.due [] [] (.race h.raced) h.results rfl (List.forall_mem_nil _)
      (List.forall_mem_nil _) (h.verdict (.refusal value)))
  | promises settled reaction =>
    rw [hf] at own
    cases own
    exact (h.frame r.now r.agenda [] (r.sent + 1) reaction).rouse rfl (.settles x)

theorem waiting_send (h : Waiting none deadline planned target timeoutMs r) (hj : r.jobs = [.send])
    (hn : r.now = 0) (late : ∀ settled ∈ f.own, settled.1 ≠ 0) :
    Waiting f.own deadline planned target timeoutMs (drain f r) := by
  have handed : f r.controller = f none := by rw [h.idle.controller]
  rw [drain_cons hj, perform, send]
  dsimp only
  rw [handed]
  rw [Transport.own] at late ⊢
  cases hf : f none with
  | throws value =>
    rw [hf] at late
    exact absurd rfl (late _ rfl)
  | promises own reaction =>
    rw [hf] at late
    have sent : Waiting none deadline planned target timeoutMs
        { r with jobs := [], sent := r.sent + 1, reaction := reaction } :=
      ⟨h.idle.frame _ _ _ _ _, h.order, h.turns⟩
    cases own with
    | none =>
      rw [drain_nil rfl]
      exact sent
    | some settled =>
      obtain ⟨time, x⟩ := settled
      cases time with
      | zero => exact absurd rfl (late _ rfl)
      | succ delay =>
        rw [drain_nil rfl]
        refine sent.schedule fun entry => ?_
        show _ ↔ entry = (r.now + (delay + 1), _) ∨ _
        rw [hn, Nat.zero_add]
        exact Expected.own_iff

/-- An abort in the turn of the call settles it, though the function is still called. -/
theorem settled_abort (f : Transport) (target : Target) (timeoutMs : Double) (reason : AbortReason) :
    Settled (.failed (.cancelledBy reason))
      (drain f ((begin target timeoutMs none).plan (some (0, reason)))) := by
  refine Bound.drain (bound_interrupt
    (r := { begin target timeoutMs none with signal := some reason, listening := false })
    rfl rfl rfl ?_ reason rfl)
  intro j hj
  rw [List.mem_singleton.1 hj]
  exact ⟨rfl, rfl⟩

/-- A waiting call stays as it is until its first turn, which settles it for good. -/
theorem Waiting.elapse (f : Transport) (h : Waiting own deadline planned target timeoutMs r)
    (hj : r.jobs = []) (apart : Apart own deadline planned) (late : ∀ abort ∈ planned, abort.1 ≠ 0) :
    ∃ start event, Earliest own deadline planned start event ∧ ∀ time,
      (time < start → elapse f time r = r) ∧
      (start ≤ time →
        Settled ((Exchange.begin target timeoutMs none).settlement event) (elapse f time r)) := by
  cases ha : r.agenda with
  | nil =>
    have set := (h.turns _).2 .deadline
    rw [ha] at set
    cases set
  | cons entry rest =>
    obtain ⟨start, turn⟩ := entry
    refine ⟨start, turn.event, h.earliest apart late ha, fun time => ⟨fun early => ?_, fun due => ?_⟩⟩
    · rw [elapse_cons ha, if_neg (Nat.not_le_of_lt early)]
    · rw [elapse_cons ha, if_pos due]
      have idle : Idle target timeoutMs { r with now := start, agenda := rest } :=
        h.idle.frame _ _ _ _ _
      exact (idle.rouse hj turn).elapse time

theorem Waiting.deadlineSet (h : Waiting own deadline planned target timeoutMs r) :
    r.deadlineSet = true :=
  List.any_eq_true.2 ⟨_, (h.turns _).2 .deadline, rfl⟩

theorem deadlineTime_long (timeoutMs : Double) : Double.stepsPerOne ≤ deadlineTime timeoutMs := by
  rw [deadlineTime]
  split
  · rename_i inRange
    rw [Bool.and_eq_true] at inRange
    obtain ⟨least, most⟩ := inRange
    have long : Double.stepsPerOne ≤ Clock.length timeoutMs := by
      cases timeoutMs with
      | nan => cases least
      | infinite negative =>
        cases negative with
        | true => cases least
        | false => exact absurd most (by decide +kernel)
      | finite negative rank =>
        have reached := of_decide_eq_true least
        rw [Int.one_mul] at reached
        cases negative with
        | true =>
          have := Double.stepsPerOne_pos
          simp only [if_true] at reached
          omega
        | false => exact Int.ofNat_le.1 reached
    exact Nat.le_mul_of_pos_left _ (Nat.div_pos long Double.stepsPerOne_pos)
  · exact Nat.le_refl _

/-- What comes of a call at any time: nothing before the first event, and then what it is. -/
theorem after_cases (f : Transport) (target : Target) (timeoutMs : Double)
    (apart : Apart f.own (deadlineTime timeoutMs) planned) :
    ∃ start event, Earliest f.own (deadlineTime timeoutMs) planned start event ∧ ∀ time,
      (time < start → Idle target timeoutMs (after f target timeoutMs none planned time) ∧
        (after f target timeoutMs none planned time).deadlineSet = true) ∧
      (start ≤ time → Settled ((Exchange.begin target timeoutMs none).settlement event)
        (after f target timeoutMs none planned time)) := by
  have positive := Nat.lt_of_lt_of_le Double.stepsPerOne_pos (deadlineTime_long timeoutMs)
  -- what happens in the turn of the call is not on the agenda: an abort first, then a settlement
  by_cases late : ∀ abort ∈ planned, abort.1 ≠ 0
  · obtain ⟨waiting, jobs, now⟩ := waiting_plan target timeoutMs late
    by_cases slow : ∀ settled ∈ f.own, settled.1 ≠ 0
    · have sent := waiting_send waiting jobs now slow
      obtain ⟨start, event, first, hafter⟩ := sent.elapse f (jobs_drain f _) apart late
      refine ⟨start, event, first, fun time => ⟨fun early => ?_, (hafter time).2⟩⟩
      rw [after, (hafter time).1 early]
      exact ⟨sent.idle, sent.deadlineSet⟩
    · obtain ⟨settled, own, atOnce⟩ : ∃ settled ∈ f.own, settled.1 = 0 := by simpa using slow
      obtain ⟨time, x⟩ := settled
      obtain rfl : time = 0 := atOnce
      refine ⟨0, x.event, .own own positive (fun abort h => Nat.pos_of_ne_zero (late abort h)),
        fun time => ⟨fun early => absurd early (Nat.not_lt_zero time), fun _ => ?_⟩⟩
      exact (settled_send waiting.idle jobs own).elapse time
  · obtain ⟨abort, habort, atOnce⟩ : ∃ abort ∈ planned, abort.1 = 0 := by simpa using late
    obtain ⟨time, reason⟩ := abort
    obtain rfl : time = 0 := atOnce
    refine ⟨0, .aborted reason, .aborted habort (.inl rfl) positive,
      fun time => ⟨fun early => absurd early (Nat.not_lt_zero time), fun _ => ?_⟩⟩
    rw [after, Option.mem_def.1 habort]
    exact (settled_abort f target timeoutMs reason).elapse time

theorem settled_aborted (f : Transport) (target : Target) (timeoutMs : Double) (reason : AbortReason)
    (planned : Option (Nat × AbortReason)) (time : Nat) :
    Settled (.failed (.cancelledBy reason))
      (after f target timeoutMs (some reason) planned time) := by
  have begun : Settled (.failed (.cancelledBy reason)) (begin target timeoutMs (some reason)) :=
    ⟨rfl, rfl, rfl, rfl, rfl⟩
  have made : Settled (.failed (.cancelledBy reason))
      ((begin target timeoutMs (some reason)).plan planned) := by
    unfold plan
    split
    · exact begun
    · exact begun
    · exact ⟨rfl, rfl, rfl, rfl, rfl⟩
  rw [after, drain_nil made.jobs]
  exact made.elapse time

end Race
end Lifecycle
