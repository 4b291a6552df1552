import Lifecycle.Call.Race

/- The turns of a call.

   A turn that is bound to bring a call to a result (`Bound`) does, whatever other jobs it has:
   none before the job that is due can decide the race, none behind it comes in time, and none of
   them changes the signals, the deadline or the results (`Calm`). A call that is `Settled` stays so
   in every later turn. How often the function is called is fixed when the call is made. -/
namespace Lifecycle

namespace Job

/-- Whether a job comes before the end of a race. -/
def isEarly : Job → Bool
  | .finish _ => false
  | .classify _ => false
  | _ => true

def isRace : Job → Bool
  | .race _ => true
  | _ => false

end Job

namespace Race

variable {f : Transport} {r : Race} {v : CallResult} {job : Job} {rest : List Job}

/-! ## One job -/

/-- What a job can do before the end of a race, or beside it: it changes neither the signals nor the
    deadline nor what has come of the race, and adds jobs that do not either. -/
def Calm (job : Job) (r r' : Race) : Prop :=
  ∃ (agenda : Agenda) (more : List Job) (reaction : AbortReason → Option Reaction) (answered : Bool),
    r' = { r with
      agenda := agenda
      jobs := r.jobs ++ more
      sent := r.sent + if job.isSend then 1 else 0
      reaction := reaction
      answered := answered } ∧
    (agenda.any (·.2.isDeadline)) = r.deadlineSet ∧
    ∀ j ∈ more, j.isEarly = true ∧ j.isSend = false

theorem any_enter (agenda : Agenda) (time : Nat) {turn : Turn} (h : turn.isDeadline = false) :
    (agenda.enter time turn).any (·.2.isDeadline) = agenda.any (·.2.isDeadline) := by
  induction agenda with
  | nil => rw [Agenda.enter, List.any_cons, h, Bool.false_or]
  | cons entry rest ih =>
    rw [Agenda.enter]
    split
    · rw [List.any_cons, h, Bool.false_or]
    · rw [List.any_cons, List.any_cons, ih]

theorem calm_queue (hs : job.isSend = false) (jobs : List Job)
    (h : ∀ j ∈ jobs, j.isEarly = true ∧ j.isSend = false) : Calm job r (r.queue jobs) := by
  refine ⟨r.agenda, jobs, r.reaction, r.answered, ?_, rfl, h⟩
  rw [hs]
  rfl

theorem calm_refl (hs : job.isSend = false) : Calm job r r := by
  have h := calm_queue (r := r) hs [] (List.forall_mem_nil _)
  rwa [queue, List.append_nil] at h

theorem early_singleton {j : Job} (early : j.isEarly = true) (hs : j.isSend = false) :
    ∀ i ∈ [j], i.isEarly = true ∧ i.isSend = false := by
  intro i hi
  rw [List.mem_singleton.1 hi]
  exact ⟨early, hs⟩

theorem calm_answer (job : Job) (hs : job.isSend = false) (x : Settlement) : Calm job r (r.answer x) := by
  unfold answer
  split
  · exact calm_refl hs
  · refine ⟨r.agenda, [.follow x], r.reaction, true, ?_, rfl, early_singleton rfl rfl⟩
    rw [hs]
    rfl

theorem calm_settle (hs : job.isSend = false) (x : Settlement) (jobs : Nat) :
    Calm job r (r.settle x jobs) := by
  cases jobs with
  | zero => exact calm_answer job hs x
  | succ jobs => exact calm_queue hs [.settle jobs x] (early_singleton rfl rfl)

theorem calm_send : Calm .send r (r.send f) := by
  unfold send
  dsimp only
  cases f r.controller with
  | throws value =>
    exact ⟨r.agenda, [.race (.refusal value)], r.reaction, r.answered, rfl, rfl, early_singleton rfl rfl⟩
  | promises own reaction =>
    have unchanged : Calm .send r { r with sent := r.sent + 1, reaction := reaction } := by
      refine ⟨r.agenda, [], reaction, r.answered, ?_, rfl, List.forall_mem_nil _⟩
      rw [List.append_nil]
      rfl
    cases own with
    | none => exact unchanged
    | some own =>
      obtain ⟨time, x⟩ := own
      cases time with
      | zero =>
        unfold answer
        dsimp only
        split
        · exact unchanged
        · exact ⟨r.agenda, [.follow x], reaction, true, rfl, rfl, early_singleton rfl rfl⟩
      | succ delay =>
        refine ⟨r.agenda.enter (r.now + (delay + 1)) (.settles x), [], reaction, r.answered, ?_,
          any_enter _ _ rfl, List.forall_mem_nil _⟩
        rw [List.append_nil]
        rfl

theorem calm_perform (early : job.isEarly = true) (h : job.isRace = false ∨ r.raced = true) :
    Calm job r (r.perform f job) := by
  cases job with
  | send => exact calm_send
  | settle jobs x => exact calm_settle rfl x jobs
  | follow x => exact calm_queue rfl [.race x] (early_singleton rfl rfl)
  | race x =>
    obtain h | raced := h
    · cases h
    · rw [perform, if_pos raced]
      exact calm_refl rfl
  | finish => cases early
  | classify => cases early

/-- How often the function is called by the end of a turn. -/
def calls (r : Race) : Nat := r.sent + r.jobs.countP Job.isSend

theorem calls_queue (jobs : List Job) : (r.queue jobs).calls = r.calls + jobs.countP Job.isSend := by
  rw [calls, calls, queue, List.countP_append, Nat.add_assoc]

theorem Calm.calls {r' : Race} (calm : Calm job r r') :
    r'.calls = r.calls + if job.isSend then 1 else 0 := by
  obtain ⟨agenda, more, reaction, answered, rfl, -, hmore⟩ := calm
  have none : more.countP Job.isSend = 0 := by
    rw [List.countP_eq_zero]
    intro j hj
    exact ne_true_of_eq_false (hmore j hj).2
  simp only [Race.calls, List.countP_append, none]
  omega

theorem calls_perform : (r.perform f job).calls = r.calls + if job.isSend then 1 else 0 := by
  cases job with
  | send => exact calm_send.calls
  | settle jobs x => exact (calm_settle rfl x jobs).calls
  | follow x => exact (calm_perform rfl (.inl rfl)).calls
  | race x =>
    rw [perform]
    split
    · rfl
    · exact calls_queue [.finish x]
  | finish x => exact calls_queue [.classify x]
  | classify x => rfl

theorem calls_drain (f : Transport) (r : Race) : (drain f r).calls = r.calls := by
  fun_induction drain f r with
  | case1 => rfl
  | case2 r job rest h ih =>
    rw [ih, calls_perform, calls, calls, h, List.countP_cons, Nat.add_assoc]

/-! ## The rest of a turn -/

/-- The job that a call waits for which a settlement has won or is about to win: the settlement
    reaches the race, or the race is over, or all is taken back. -/
inductive Due (r : Race) (x : Settlement) : Job → Prop where
  | race (raced : r.raced = false) : Due r x (.race x)
  | finish (raced : r.raced = true) : Due r x (.finish x)
  | classify (raced : r.raced = true) (deadline : r.deadlineSet = false)
      (listening : r.listening = false) : Due r x (.classify x)

/-- Whether the rest of a turn makes a call come to a result. No job before the one that is due
    can decide the race, and the jobs behind it come too late. -/
inductive Bound (v : CallResult) (r : Race) : Prop where
  | due {x : Settlement} {job : Job} (before behind : List Job) (due : Due r x job)
      (results : r.results = []) (jobs : r.jobs = before ++ job :: behind)
      (first : ∀ j ∈ before, j.isEarly = true ∧ (j.isRace = false ∨ r.raced = true))
      (others : ∀ j ∈ behind, j.isEarly = true) (verdict : r.classify x = v)
  | settled (raced : r.raced = true) (results : r.results = [v])
      (others : ∀ j ∈ r.jobs, j.isEarly = true)
      (deadline : r.deadlineSet = false) (listening : r.listening = false)

/-- The job that is due makes the next one due, or the call has come to its result. -/
theorem Due.perform {x : Settlement} (due : Due r x job) (results : r.results = [])
    (others : ∀ j ∈ r.jobs, j.isEarly = true) (verdict : r.classify x = v) :
    Bound v (r.perform f job) := by
  cases due with
  | race raced =>
    rw [Race.perform, if_neg (ne_true_of_eq_false raced)]
    exact .due r.jobs [] (.finish rfl) results rfl (fun j hj => ⟨others j hj, .inr rfl⟩)
      (List.forall_mem_nil _) verdict
  | finish raced =>
    refine .due r.jobs [] (.classify raced ?_ rfl) results rfl
      (fun j hj => ⟨others j hj, .inr raced⟩) (List.forall_mem_nil _) verdict
    show (r.agenda.filter (!·.2.isDeadline)).any (·.2.isDeadline) = false
    simp
  | classify raced deadline listening =>
    refine .settled raced ?_ others deadline listening
    show r.results ++ [r.classify x] = [v]
    rw [results, verdict]
    rfl

theorem Calm.due {r' : Race} {x : Settlement} {next : Job} (calm : Calm job r r')
    (due : Due r x next) : Due r' x next := by
  obtain ⟨agenda, more, reaction, answered, rfl, hset, -⟩ := calm
  cases due with
  | race raced => exact .race raced
  | finish raced => exact .finish raced
  | classify raced deadline listening => exact .classify raced (hset.trans deadline) listening

theorem Bound.calm {r' : Race} (h : Bound v r) (calm : Calm job r r') : Bound v r' := by
  cases h with
  | due before behind due results jobs first others verdict =>
    have due' := calm.due due
    obtain ⟨agenda, more, reaction, answered, rfl, -, hmore⟩ := calm
    refine .due before (behind ++ more) due' results ?_ first ?_ verdict
    · show r.jobs ++ more = _
      rw [jobs, List.append_assoc, List.cons_append]
    · intro i hi
      obtain hi | hi := List.mem_append.1 hi
      · exact others i hi
      · exact (hmore i hi).1
  | settled raced results others deadline listening =>
    obtain ⟨agenda, more, reaction, answered, rfl, hset, hmore⟩ := calm
    refine .settled raced results ?_ (hset.trans deadline) listening
    intro i hi
    obtain hi | hi := List.mem_append.1 hi
    · exact others i hi
    · exact (hmore i hi).1

theorem Bound.perform (h : Bound v r) (hj : r.jobs = job :: rest) :
    Bound v (({ r with jobs := rest } : Race).perform f job) := by
  cases h with
  | @due x next before behind due results jobs first others verdict =>
    have due' : Due { r with jobs := rest } x next := by cases due <;> constructor <;> assumption
    rw [hj] at jobs
    cases before with
    | nil =>
      -- this is the job that is due
      obtain ⟨rfl, rfl⟩ := List.cons.inj jobs
      exact due'.perform results others verdict
    | cons _ before =>
      obtain ⟨rfl, hrest⟩ := List.cons.inj jobs
      obtain ⟨early, quiet⟩ := first job List.mem_cons_self
      have bound : Bound v { r with jobs := rest } :=
        .due before behind due' results hrest (fun i hi => first i (List.mem_cons_of_mem _ hi)) others verdict
      exact bound.calm (calm_perform early quiet)
  | settled raced results others deadline listening =>
    rw [hj] at others
    have bound : Bound v { r with jobs := rest } :=
      .settled raced results (fun i hi => others i (List.mem_cons_of_mem _ hi)) deadline listening
    exact bound.calm (calm_perform (others job List.mem_cons_self) (.inr raced))

/-- A call that has come to its result, with nothing left of it but what its function may still do. -/
structure Settled (v : CallResult) (r : Race) : Prop where
  raced : r.raced = true
  results : r.results = [v]
  jobs : r.jobs = []
  deadline : r.deadlineSet = false
  listening : r.listening = false

/-- **A turn that makes a call come to a result comes to it**, and takes everything back. -/
theorem Bound.drain (h : Bound v r) : Settled v (drain f r) := by
  fun_induction Race.drain f r with
  | case1 r hj =>
    cases h with
    | due before _ _ _ jobs => rw [hj] at jobs; cases before <;> cases jobs
    | settled raced results _ deadline listening => exact ⟨raced, results, hj, deadline, listening⟩
  | case2 r job rest hj ih => exact ih (h.perform hj)

theorem Settled.bound (h : Settled v r) : Bound v r :=
  .settled h.raced h.results (by simp [h.jobs]) h.deadline h.listening

theorem Settled.abort (h : Settled v r) (reason : AbortReason) : Bound v (r.abort reason) := by
  unfold Race.abort
  split
  · exact h.bound
  · rw [if_neg (ne_true_of_eq_false h.listening)]
    exact .settled h.raced h.results (by simp [h.jobs]) h.deadline h.listening

theorem Settled.take {start : Nat} {turn : Turn} {rest : Agenda} (h : Settled v r)
    (ha : r.agenda = (start, turn) :: rest) :
    Settled v (({ r with agenda := rest } : Race).take f start turn) := by
  have deadline := h.deadline
  rw [deadlineSet, ha, List.any_cons, Bool.or_eq_false_iff] at deadline
  have later : Settled v { r with agenda := rest, now := start } :=
    ⟨h.raced, h.results, h.jobs, deadline.2, h.listening⟩
  apply Bound.drain
  cases turn with
  | settles x => exact later.bound.calm (calm_answer (.follow x) rfl x)
  | deadline => cases deadline.1
  | aborts reason => exact later.abort reason

theorem Settled.elapse (time : Nat) (h : Settled v r) : Settled v (elapse f time r) := by
  fun_induction Race.elapse f time r with
  | case1 => exact h
  | case2 r start turn rest ha _ ih => exact ih (h.take ha)
  | case3 => exact h

/-! ## The first turns -/

theorem drain_cons (hj : r.jobs = job :: rest) :
    drain f r = drain f (({ r with jobs := rest } : Race).perform f job) := by
  rw [drain]
  split
  · rename_i h
    rw [hj] at h
    cases h
  · rename_i h
    rw [hj] at h
    cases h
    rfl

theorem drain_nil (hj : r.jobs = []) : drain f r = r := by
  rw [drain]
  split
  · rfl
  · rename_i h
    rw [hj] at h
    cases h

theorem elapse_cons {start time : Nat} {turn : Turn} {rest : Agenda}
    (ha : r.agenda = (start, turn) :: rest) : elapse f time r =
      if start ≤ time then elapse f time (({ r with agenda := rest } : Race).take f start turn)
      else r := by
  rw [elapse]
  split
  · rename_i h
    rw [ha] at h
    cases h
  · rename_i h
    rw [ha] at h
    cases h
    rfl

theorem calm_react (job : Job) (hs : job.isSend = false) (reaction : Option Reaction) :
    Calm job r (r.react reaction) := by
  cases reaction with
  | none => exact calm_refl hs
  | some reaction =>
    cases reaction with
    | soon jobs x => exact calm_settle hs x jobs
    | later delay x =>
      refine ⟨r.agenda.enter (r.now + delay) (.settles x), [], r.reaction, r.answered, ?_,
        any_enter _ _ rfl, List.forall_mem_nil _⟩
      rw [hs, List.append_nil]
      rfl

/-- An abort of the function's signal reaches the race before anything that the function makes of it. -/
theorem bound_interrupt (fresh : r.controller = none) (raced : r.raced = false)
    (results : r.results = []) (first : ∀ j ∈ r.jobs, j.isEarly = true ∧ j.isRace = false)
    (reason : AbortReason) (verdict : r.classify (.refusal reason) = v) :
    Bound v (r.interrupt reason) := by
  rw [interrupt, fresh]
  have bound : Bound v (({ r with controller := some reason } : Race).queue [.race (.refusal reason)]) :=
    .due r.jobs [] (.race raced) results rfl
      (fun j hj => ⟨(first j hj).1, .inl (first j hj).2⟩) (List.forall_mem_nil _) verdict
  exact bound.calm (calm_react (.follow (.refusal reason)) rfl _)

/-- A settlement of the function's promise wins a race that nothing else takes part in. -/
theorem settled_answer (answered : r.answered = false) (raced : r.raced = false)
    (results : r.results = []) (jobs : r.jobs = []) (x : Settlement) (verdict : r.classify x = v) :
    Settled v (drain f (r.answer x)) := by
  have hjobs : (r.answer x).jobs = [.follow x] := by
    rw [answer, if_neg (ne_true_of_eq_false answered)]
    show r.jobs ++ _ = _
    rw [jobs]
    rfl
  rw [drain_cons hjobs]
  apply Bound.drain
  rw [answer, if_neg (ne_true_of_eq_false answered)]
  exact .due [] [] (.race raced) results rfl (List.forall_mem_nil _)
    (List.forall_mem_nil _) verdict

/-! ## How often the function is called -/

theorem jobs_drain (f : Transport) (r : Race) : (drain f r).jobs = [] := by
  fun_induction drain f r with
  | case1 r hj => exact hj
  | case2 r job rest hj ih => exact ih

theorem calls_answer (x : Settlement) : (r.answer x).calls = r.calls :=
  (calm_answer (.follow x) rfl x).calls

theorem calls_interrupt (reason : AbortReason) : (r.interrupt reason).calls = r.calls := by
  unfold interrupt
  split
  · rfl
  · rw [(calm_react (.follow (.refusal reason)) rfl _).calls, calls_queue]
    rfl

theorem calls_abort (reason : AbortReason) : (r.abort reason).calls = r.calls := by
  unfold abort
  split
  · rfl
  · split
    · exact calls_interrupt reason
    · rfl

theorem calls_take (start : Nat) (turn : Turn) : (r.take f start turn).calls = r.calls := by
  refine (calls_drain f _).trans ?_
  cases turn with
  | settles x => exact calls_answer x
  | deadline => exact calls_interrupt _
  | aborts reason => exact calls_abort reason

theorem calls_elapse (time : Nat) : (elapse f time r).calls = r.calls := by
  fun_induction elapse f time r with
  | case1 => rfl
  | case2 r start turn rest ha _ ih => rw [ih, calls_take]; rfl
  | case3 => rfl

theorem jobs_elapse (time : Nat) (hj : r.jobs = []) : (elapse f time r).jobs = [] := by
  fun_induction elapse f time r with
  | case1 => exact hj
  | case2 r start turn rest ha _ ih => exact ih (jobs_drain f _)
  | case3 => exact hj

theorem sent_after (f : Transport) (target : Target) (timeoutMs : Double) (signal : Signal)
    (planned : Option (Nat × AbortReason)) (time : Nat) :
    (after f target timeoutMs signal planned time).sent = if signal.isNone then 1 else 0 := by
  have done : (after f target timeoutMs signal planned time).jobs = [] :=
    jobs_elapse time (jobs_drain f _)
  have made : (after f target timeoutMs signal planned time).calls = if signal.isNone then 1 else 0 := by
    have begun : (begin target timeoutMs signal).calls = if signal.isNone then 1 else 0 := by
      cases signal <;> rfl
    rw [after, calls_elapse, calls_drain, ← begun]
    unfold plan
    split
    · rfl
    · exact calls_abort _
    · rfl
  rw [← made, calls, done]
  rfl

end Race
end Lifecycle
