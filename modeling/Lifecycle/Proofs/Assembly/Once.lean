import Lifecycle.Assembly.History

/- What assembling does once, and what it never does twice.

   Since a reset there is no assembly, or one that was started and not carried out, or one that was carried
   out (`Since`). Every event keeps this, as long as none of them carries out an assembly that was started
   before the reset, and the shared outcome and the options of the one assembly are read off it
   (`assembled_once`). An assembly that was started before the reset breaks it: it is still carried out,
   and then the parts are there without a call, or are made twice (`late_assembly_counts`). -/
namespace Lifecycle

/-! ## Parts that are kept -/

namespace Parts

variable {p : Parts} {role : Role} {provider : Provider} {c : Configuration}

theorem provider?_provide {other : Role} (h : other ≠ role) (p : Parts) (x : Provider) :
    (p.provide other x).provider? role = p.provider? role := by
  have rest : (p.providers.filter (·.1 != other)).find? (·.1 == role) =
      p.providers.find? (·.1 == role) := by
    rw [List.find?_filter]
    congr 1
    funext q
    by_cases hq : q.1 = role
    · simp [hq, Ne.symm h]
    · simp [hq]
  simp [provider?, provide, h, rest]

theorem provider?_complete (h : p.provider? role = some provider) (other : Role) :
    (p.complete other).provider? role = some provider := by
  unfold complete
  split
  · exact h
  · next absent =>
    refine (provider?_provide ?_ p .standard).trans h
    -- the role that is served is not the one that nothing serves
    rintro rfl
    obtain ⟨q, found, -⟩ := Option.map_eq_some_iff.1 h
    have served : (q.1 == other) = true := by simpa using List.find?_some found
    exact absent (List.any_eq_true.2 ⟨q, List.mem_of_find?_eq_some found, served⟩)

/-- What is served, and the configuration, are still as they were. -/
structure KeptIn (p q : Parts) : Prop where
  provider : ∀ {role provider}, p.provider? role = some provider → q.provider? role = some provider
  configuration : ∀ {c}, p.configuration = some c → q.configuration = some c

theorem KeptIn.refl (p : Parts) : p.KeptIn p := ⟨id, id⟩

theorem KeptIn.trans {q u : Parts} (h : p.KeptIn q) (h' : q.KeptIn u) : p.KeptIn u :=
  ⟨fun served => h'.provider (h.provider served), fun given => h'.configuration (h.configuration given)⟩

theorem KeptIn.completed (roles : List Role) (p : Parts) : p.KeptIn (roles.foldl complete p) := by
  induction roles generalizing p with
  | nil => exact .refl p
  | cons other roles ih =>
    refine .trans ⟨fun served => provider?_complete served other, fun given => ?_⟩ (ih (p.complete other))
    unfold complete
    split <;> exact given

end Parts

namespace Assembly

variable {a origin : Assembly} {role : Role} {provider : Provider} {c : Configuration}
  {environment : List (Text × Text)} {options : AssemblyOptions}

theorem withRuntime_ok {p q : Parts} (h : withRuntime environment options p = .ok q) : p.KeptIn q := by
  unfold withRuntime at h
  cases hp : SignalPolicy.ofMode (options.mode.getD (.detect environment)) with
  | error u => simp only [hp] at h; cases h
  | ok policy => simp only [hp] at h; cases h; exact ⟨id, id⟩

theorem withConfiguration_ok {p q : Parts} (h : withConfiguration environment p = .ok q) :
    p.KeptIn q := by
  unfold withConfiguration at h
  cases hc : p.configuration with
  | some given => simp only [hc] at h; cases h; exact .refl p
  | none =>
    simp only [hc] at h
    cases hl : Configuration.load (.ofEnvironment environment) with
    | error issues => simp only [hl] at h; cases h
    | ok loaded =>
      simp only [hl] at h
      cases h
      exact ⟨id, fun given => by cases hc.symm.trans given⟩

theorem withRoles_keeps (environment : List (Text × Text)) (p : Parts) :
    p.KeptIn (withRoles environment p) :=
  have completed := Parts.KeptIn.completed Role.all p
  ⟨fun served => completed.provider served, fun given => completed.configuration given⟩

theorem assemble_keeps (environment : List (Text × Text)) (options : AssemblyOptions) (p : Parts) :
    p.KeptIn (assemble environment options p).1 := by
  unfold assemble
  cases hr : withRuntime environment options p with
  | error u => exact .refl p
  | ok q =>
    have running := withRuntime_ok hr
    simp only
    cases hc : withConfiguration environment q with
    | error issues => exact running
    | ok u => exact (running.trans (withConfiguration_ok hc)).trans (withRoles_keeps environment u)

theorem carryOut_cases (a : Assembly) (environment : List (Text × Text)) (id : Nat) :
    (a.started[id]? = none ∧ a.carryOut environment id = a) ∨
    ∃ options, a.started[id]? = some options ∧
      a.carryOut environment id = { a with
        parts := (assemble environment options a.parts).1
        initialized := a.initialized || (assemble environment options a.parts).2.isOk
        settled := (id, (assemble environment options a.parts).2) :: a.settled
        performed := a.performed ++ [options] } := by
  unfold carryOut
  cases h : a.started[id]? with
  | none => exact .inl ⟨rfl, rfl⟩
  | some options => exact .inr ⟨options, rfl, rfl⟩

theorem complete_cases (a : Assembly) (environment : List (Text × Text)) (id : Nat) :
    a.complete environment id = a ∨
    ∃ options, (∀ p ∈ a.settled, p.1 ≠ id) ∧ a.started[id]? = some options ∧
      a.complete environment id = { a with
        parts := (assemble environment options a.parts).1
        initialized := a.initialized || (assemble environment options a.parts).2.isOk
        settled := (id, (assemble environment options a.parts).2) :: a.settled
        performed := a.performed ++ [options] } := by
  unfold complete
  by_cases hs : a.settled.any (·.1 == id)
  · exact .inl (if_pos hs)
  · rw [if_neg hs]
    have unsettled : ∀ p ∈ a.settled, p.1 ≠ id := fun p hp same =>
      hs (List.any_eq_true.2 ⟨p, hp, beq_iff_eq.2 same⟩)
    obtain ⟨-, same⟩ | ⟨options, started, carried⟩ := carryOut_cases a environment id
    · exact .inl same
    · exact .inr ⟨options, unsettled, started, carried⟩

theorem complete_keeps (a : Assembly) (environment : List (Text × Text)) (id : Nat) :
    a.parts.KeptIn (a.complete environment id).parts := by
  obtain same | ⟨options, -, -, carried⟩ := complete_cases a environment id
  · rw [same]
    exact .refl _
  · rw [carried]
    exact assemble_keeps environment options a.parts

theorem call_parts (a : Assembly) (options : AssemblyOptions) : (a.call options).1.parts = a.parts := by
  unfold call
  split
  · rfl
  · split <;> rfl

theorem call_started (a : Assembly) (options : AssemblyOptions) :
    a.started.length ≤ (a.call options).1.started.length := by
  unfold call
  split
  · exact Nat.le_refl _
  · split
    · exact Nat.le_refl _
    · simp

theorem call_settled (a : Assembly) (options : AssemblyOptions) :
    (a.call options).1.settled = a.settled := by
  unfold call
  split
  · rfl
  · split <;> rfl

/-- What holds of the parts, and goes on to hold as they grow, holds until a reset, as long as nothing that
    is registered puts an end to it. -/
theorem holds_until_reset {P : Parts → Prop} (grows : ∀ {p q : Parts}, p.KeptIn q → P p → P q)
    (history : List AssemblyEvent) (unreset : .reset ∉ history)
    (configured : ∀ c, .registered c ∈ history → ∀ p, P p → P { p with configuration := some c })
    (substituted : ∀ role, .substituted role ∈ history → ∀ p, P p → P (p.provide role .substitute))
    (h : P a.parts) : P (a.after history).parts := by
  induction history generalizing a with
  | nil => exact h
  | cons e history ih =>
    apply ih
    · exact fun later => unreset (.tail _ later)
    · exact fun c later => configured c (.tail _ later)
    · exact fun role later => substituted role (.tail _ later)
    · cases e with
      | called options =>
        change P (a.call options).1.parts
        rwa [call_parts]
      | completed environment id => exact grows (complete_keeps a environment id) h
      | reset => exact absurd (.head _) unreset
      | registered c => exact configured c (.head _) a.parts h
      | substituted role => exact substituted role (.head _) a.parts h

/-- What serves a role serves it until a reset or until a substitute is given for it. -/
theorem provider_kept (h : a.parts.provider? role = some provider) (history : List AssemblyEvent)
    (unreset : .reset ∉ history) (unreplaced : .substituted role ∉ history) :
    (a.after history).parts.provider? role = some provider := by
  apply holds_until_reset (P := fun p => p.provider? role = some provider) _ history unreset _ _ h
  · intro p q kept served
    exact kept.provider served
  · intro c _ p served
    exact served
  · intro other given p served
    have ne : other ≠ role := fun same => unreplaced (same ▸ given)
    exact (Parts.provider?_provide ne p .substitute).trans served

theorem configuration_kept (h : a.parts.configuration = some c) (history : List AssemblyEvent)
    (unreset : .reset ∉ history) (unreplaced : ∀ d, .registered d ∉ history) :
    (a.after history).parts.configuration = some c := by
  apply holds_until_reset (P := fun p => p.configuration = some c) _ history unreset _ _ h
  · intro p q kept given
    exact kept.configuration given
  · intro d registered
    exact absurd registered (unreplaced d)
  · intro other _ p given
    exact given

/-! ## Outcomes -/

theorem outcome_kept {x : Answer} {r : Except Text Unit} (h : a.outcome? x = some r)
    (history : List AssemblyEvent) : (a.after history).outcome? x = some r := by
  have settled_kept (e : AssemblyEvent) {a : Assembly} {id : Nat}
      (h : (a.settled.find? (·.1 == id)).map (·.2) = some r) :
      ((a.step e).settled.find? (·.1 == id)).map (·.2) = some r := by
    cases e with
    | called options =>
      change ((a.call options).1.settled.find? _).map _ = _
      rwa [call_settled]
    | completed environment other =>
      change ((a.complete environment other).settled.find? _).map _ = _
      obtain same | ⟨o, unsettled, -, carried⟩ := complete_cases a environment other
      · rwa [same]
      · have ne : other ≠ id := by
          rintro rfl
          obtain ⟨p, found, -⟩ := Option.map_eq_some_iff.1 h
          exact unsettled p (List.mem_of_find?_eq_some found) (by simpa using List.find?_some found)
        simpa [carried, ne] using h
    | reset => exact h
    | registered c => exact h
    | substituted role => exact h
  induction history generalizing a with
  | nil => exact h
  | cons e history ih =>
    refine ih ?_
    cases x with
    | done => exact h
    | shared id => exact settled_kept e h
    | begun id => exact settled_kept e h

/-! ## Since a reset -/

/-- What there is of assemblies since a reset, after the calls for them and their answers: none is
    started, or one is and not carried out, or that one is carried out. -/
inductive Since (origin : Assembly) : Assembly → List AssemblyOptions → List Answer → Prop where
  | idle {a : Assembly} (started : a.started = origin.started) (current : a.current = none)
      (initialized : a.initialized = false) (performed : a.performed = [])
      (settled : a.settled = origin.settled) : Since origin a [] []
  | begun {a : Assembly} {options : AssemblyOptions} {calls : List AssemblyOptions}
      {answers : List Answer} (started : a.started = origin.started ++ [options])
      (current : a.current = some origin.started.length) (initialized : a.initialized = false)
      (performed : a.performed = []) (settled : a.settled = origin.settled)
      (answered : ∀ x ∈ answers, x = .begun origin.started.length ∨ x = .shared origin.started.length) :
      Since origin a (options :: calls) answers
  | carriedOut {a : Assembly} {options : AssemblyOptions} {calls : List AssemblyOptions}
      {answers : List Answer} {r : Except Text Unit} (started : a.started = origin.started ++ [options])
      (current : a.current = some origin.started.length) (initialized : a.initialized = r.isOk)
      (performed : a.performed = [options])
      (settled : a.settled = (origin.started.length, r) :: origin.settled)
      (answered : ∀ x ∈ answers, x = .begun origin.started.length ∨ x = .shared origin.started.length ∨
        x = .done ∧ r.isOk = true) :
      Since origin a (options :: calls) answers

variable {called : List AssemblyOptions} {given : List Answer}

theorem Since.call (h : Since origin a called given) (options : AssemblyOptions) :
    Since origin (a.call options).1 (called ++ [options]) (given ++ [(a.call options).2]) := by
  cases h with
  | idle started current initialized performed settled =>
    have answer : a.call options = ({ a with
        current := some a.started.length
        started := a.started ++ [options] }, .begun a.started.length) := by
      simp [Assembly.call, initialized, current]
    rw [answer, started]
    exact .begun rfl rfl initialized performed settled (by simp)
  | begun started current initialized performed settled answered =>
    have answer : a.call options = (a, .shared origin.started.length) := by
      simp [Assembly.call, initialized, current]
    rw [answer]
    refine .begun started current initialized performed settled fun x hx => ?_
    obtain hx | hx := List.mem_append.1 hx
    · exact answered x hx
    · exact .inr (List.mem_singleton.1 hx)
  | @carriedOut first calls _ r started current initialized performed settled answered =>
    have answer : a.call options = (a, if r.isOk then .done else .shared origin.started.length) := by
      cases hr : r.isOk <;> simp [Assembly.call, initialized, current, hr]
    rw [answer]
    refine .carriedOut started current initialized performed settled fun x hx => ?_
    obtain hx | hx := List.mem_append.1 hx
    · exact answered x hx
    · obtain rfl := List.mem_singleton.1 hx
      cases hr : r.isOk <;> simp

theorem Since.complete (h : Since origin a called given) {id : Nat}
    (timely : origin.started.length ≤ id) (environment : List (Text × Text)) :
    Since origin (a.complete environment id) called given := by
  obtain same | ⟨o, unsettled, begun, carried⟩ := complete_cases a environment id
  · rwa [same]
  · cases h with
    | idle started =>
      rw [started, List.getElem?_eq_none timely] at begun
      cases begun
    | @begun options calls _ started current initialized performed settled answered =>
      have own : id = origin.started.length ∧ o = options := by
        rw [started] at begun
        obtain ⟨inside, at_⟩ := List.getElem?_eq_some_iff.1 begun
        have : id = origin.started.length := by
          rw [List.length_append, List.length_singleton] at inside
          omega
        subst this
        exact ⟨rfl, by simpa using at_.symm⟩
      obtain ⟨rfl, rfl⟩ := own
      rw [carried]
      refine .carriedOut (r := (assemble environment o a.parts).2) started current (by simp [initialized])
        (by simp [performed]) (by simp [settled]) fun x hx => ?_
      obtain hx | hx := answered x hx
      · exact .inl hx
      · exact .inr (.inl hx)
    | carriedOut started current initialized performed settled answered =>
      have inside := (List.getElem?_eq_some_iff.1 begun).1
      rw [started, List.length_append, List.length_singleton] at inside
      have same : origin.started.length = id := by omega
      exact absurd same (unsettled _ (by rw [settled]; exact .head _))

theorem Since.register (h : Since origin a called given) (p : Parts) :
    Since origin { a with parts := p } called given := by
  cases h with
  | idle started current initialized performed settled =>
    exact .idle started current initialized performed settled
  | begun started current initialized performed settled answered =>
    exact .begun started current initialized performed settled answered
  | carriedOut started current initialized performed settled answered =>
    exact .carriedOut started current initialized performed settled answered

def calls (history : List AssemblyEvent) : List AssemblyOptions := history.filterMap (·.options?)

/-- What there is since a reset is there after any events that carry out no assembly from before it. -/
theorem Since.run {history : List AssemblyEvent} (h : Since origin a called given)
    (unreset : .reset ∉ history)
    (timely : ∀ environment id, .completed environment id ∈ history → origin.started.length ≤ id) :
    Since origin (a.after history) (called ++ calls history) (given ++ a.answers history) := by
  induction history generalizing a called given with
  | nil => simpa [calls, answers, after] using h
  | cons e history ih =>
    have later {a : Assembly} {called : List AssemblyOptions} {given : List Answer}
        (h : Since origin a called given) := ih h (fun hr => unreset (.tail _ hr))
          fun environment id hc => timely environment id (.tail _ hc)
    cases e with
    | called options =>
      have more := later (h.call options)
      rw [List.append_assoc, List.append_assoc] at more
      exact more
    | completed environment id =>
      exact later (h.complete (timely environment id (.head _)) environment)
    | reset => exact absurd (.head _) unreset
    | registered c => exact later (h.register _)
    | substituted role => exact later (h.register _)

theorem Since.performed (h : Since origin a called given) :
    a.performed = [] ∨ ∃ options, called.head? = some options ∧ a.performed = [options] := by
  cases h with
  | idle _ _ _ performed => exact .inl performed
  | begun _ _ _ performed => exact .inl performed
  | carriedOut _ _ _ performed => exact .inr ⟨_, rfl, performed⟩

theorem eq_ok_of_isOk {r : Except Text Unit} (h : r.isOk = true) : r = .ok () := by
  cases r with
  | error m => cases h
  | ok u => rfl

theorem Since.outcome (h : Since origin a called given)
    (unsettled : ∀ p ∈ origin.settled, p.1 < origin.started.length) :
    ∃ outcome, ∀ x ∈ given, a.outcome? x = outcome := by
  cases h with
  | idle => exact ⟨none, List.forall_mem_nil _⟩
  | begun _ _ _ _ settled answered =>
    have missing : a.settled.find? (·.1 == origin.started.length) = none := by
      rw [settled, List.find?_eq_none]
      intro p hp
      simpa using Nat.ne_of_lt (unsettled p hp)
    refine ⟨none, fun x hx => ?_⟩
    obtain rfl | rfl := answered x hx <;> simp [outcome?, missing]
  | @carriedOut _ _ _ r _ _ _ _ settled answered =>
    refine ⟨some r, fun x hx => ?_⟩
    obtain rfl | rfl | ⟨rfl, ok⟩ := answered x hx
    · simp [outcome?, settled]
    · simp [outcome?, settled]
    · exact congrArg some (eq_ok_of_isOk ok).symm

theorem Since.finished (h : Since origin a called given) (done : a.initialized = true) :
    a.started.length = origin.started.length + 1 ∧
      a.outcome? (.begun origin.started.length) = some (.ok ()) := by
  cases h with
  | idle _ _ initialized => rw [initialized] at done; cases done
  | begun _ _ initialized => rw [initialized] at done; cases done
  | carriedOut started _ initialized _ settled =>
    have ok := eq_ok_of_isOk (initialized ▸ done)
    exact ⟨by simp [started], by simp [outcome?, settled, ok]⟩

theorem answers_append (a : Assembly) (sooner later : List AssemblyEvent) :
    a.answers (sooner ++ later) = a.answers sooner ++ (a.after sooner).answers later := by
  induction sooner generalizing a with
  | nil => rfl
  | cons e sooner ih =>
    cases e with
    | called options => exact congrArg (List.cons _) (ih _)
    | _ => exact ih _

theorem settled_started (history : List AssemblyEvent) :
    ∀ p ∈ (Assembly.empty.after history).settled,
      p.1 < (Assembly.empty.after history).started.length := by
  have run (history : List AssemblyEvent) {a : Assembly}
      (h : ∀ p ∈ a.settled, p.1 < a.started.length) :
      ∀ p ∈ (a.after history).settled, p.1 < (a.after history).started.length := by
    induction history generalizing a with
    | nil => exact h
    | cons e history ih =>
      refine ih ?_
      cases e with
      | called options =>
        intro p hp
        have old := h p ((call_settled a options) ▸ hp)
        exact Nat.lt_of_lt_of_le old (call_started a options)
      | completed environment id =>
        change ∀ p ∈ (a.complete environment id).settled, p.1 < (a.complete environment id).started.length
        obtain same | ⟨o, -, begun, carried⟩ := complete_cases a environment id
        · rwa [same]
        · rw [carried]
          intro p hp
          obtain rfl | hp := List.mem_cons.1 hp
          · exact (List.getElem?_eq_some_iff.1 begun).1
          · exact h p hp
      | reset => exact h
      | registered c => exact h
      | substituted role => exact h
  exact run history (List.forall_mem_nil _)

/-- **Between two resets an assembly is carried out once**, whatever the calls, their options and the
    environment, as long as no assembly that was started before the reset is still to be carried out. It
    is carried out with the options of the first call, if at all; all calls that are settled are settled
    alike, from the first moment on; there is a finished assembly only if one of this time was carried
    out well; and what serves a role, or a configuration, is never replaced by it. -/
theorem assembled_once {before since : List AssemblyEvent} (unreset : .reset ∉ since)
    (timely : ∀ environment id, .completed environment id ∈ since →
      (Assembly.empty.after before).started.length ≤ id) :
    let origin := (Assembly.empty.after before).reset
    let now := origin.after since
    (now.performed = [] ∨ ∃ options, (calls since).head? = some options ∧ now.performed = [options]) ∧
      (∀ sooner later, since = sooner ++ later → ∀ x ∈ origin.answers sooner, ∀ y ∈ origin.answers since,
        ∀ r q, (origin.after sooner).outcome? x = some r → now.outcome? y = some q → r = q) ∧
      (now.initialized = true → now.started.length = origin.started.length + 1 ∧
        now.outcome? (.begun origin.started.length) = some (.ok ())) ∧
      (∀ sooner later, since = sooner ++ later →
        (∀ role provider, (origin.after sooner).parts.provider? role = some provider →
          .substituted role ∉ later → now.parts.provider? role = some provider) ∧
        (∀ c, (origin.after sooner).parts.configuration = some c → (∀ d, .registered d ∉ later) →
          now.parts.configuration = some c)) := by
  intro origin now
  have unsettled : ∀ p ∈ origin.settled, p.1 < origin.started.length := settled_started before
  have idle : Since origin origin [] [] := .idle rfl rfl rfl rfl rfl
  have state : Since origin now (calls since) (origin.answers since) := idle.run unreset timely
  obtain ⟨outcome, alike⟩ := state.outcome unsettled
  refine ⟨state.performed, ?_, state.finished, ?_⟩
  · rintro sooner later rfl x hx y hy r q hr hq
    have kept : now.outcome? x = some r := by
      rw [show now = (origin.after sooner).after later from List.foldl_append]
      exact outcome_kept hr later
    have hx := alike x (answers_append origin sooner later ▸ List.mem_append_left _ hx)
    exact Option.some.inj ((kept.symm.trans hx).trans ((alike y hy).symm.trans hq))
  · rintro sooner later rfl
    have split : now = (origin.after sooner).after later := List.foldl_append
    rw [split]
    have unreset' : .reset ∉ later := fun h => unreset (List.mem_append_right _ h)
    exact ⟨fun role provider h unreplaced => provider_kept h later unreset' unreplaced,
      fun c h unreplaced => configuration_kept h later unreset' unreplaced⟩

/-- Two calls after a reset: the parts are made once, in the mode of the first. -/
theorem second_call_shares :
    let before : List AssemblyEvent := [.called ⟨some .cli⟩, .completed [] 0]
    let since : List AssemblyEvent := [.called ⟨some .test⟩, .called ⟨none⟩, .completed [] 1]
    let now := (Assembly.empty.after before).reset.after since
    now.performed.map (·.mode) = [some .test] ∧ now.outcome? (.begun 1) = some (.ok ()) := by
  intro before since now
  have timely : ∀ environment id, .completed environment id ∈ since →
      (Assembly.empty.after before).started.length ≤ id := by
    intro environment id h
    simp only [since, List.mem_cons, reduceCtorEq, AssemblyEvent.completed.injEq, List.not_mem_nil,
      or_false, false_or] at h
    obtain ⟨-, rfl⟩ := h
    decide +kernel
  obtain ⟨performed, -, finished, -⟩ := assembled_once (by simp [since]) timely
  have done : now.initialized = true := by decide +kernel
  refine ⟨?_, (finished done).2⟩
  obtain never | ⟨options, first, performed⟩ := performed
  · have once : now.performed.length = 1 := by decide +kernel
    rw [show now.performed = [] from never] at once
    cases once
  · cases first
    exact congrArg (List.map (·.mode)) performed

/-- An assembly that was started before a reset is still carried out after it: there is a finished assembly,
    in the mode of the call before the reset, though the one since then is not settled, and when that one
    is carried out as well the parts are made a second time. -/
theorem late_assembly_counts :
    let now := Assembly.empty.after
      [.called ⟨some .cli⟩, .reset, .called ⟨some .test⟩, .completed [] 0]
    now.initialized = true ∧ now.parts.runtime.map (·.1) = some .cli ∧
      (now.outcome? (.begun 1)).isNone = true ∧
      (now.step (.completed [] 1)).performed.map (·.mode) = [some .cli, some .test] := by
  decide +kernel

end Assembly

end Lifecycle
