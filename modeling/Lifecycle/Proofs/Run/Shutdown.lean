import Mathlib.Data.List.Nodup
import Lifecycle.Run.SignalPort

/- What a shutdown watch comes to, over any history of its port.

   Several handlers abort one signal, and each of them may have been called, or taken off, when another
   one is. Since no two handlers have the same number, a raised signal calls exactly the own handlers that
   are still registered for it; so a watch at a port goes step by step as a `Watch` does that only knows
   what it listens for (`Mirrors`). What that one comes to is read off the history: the first event that
   disposes of it or raises a signal it listens for decides (`PortEvent.stop?`), and nothing after that
   changes its signal (`shutdown_settled`). -/
namespace Lifecycle

/-! ## What a watch hears of a history -/

/-- What an event at a port is to one watch. -/
def PortEvent.own? (index : Nat) : PortEvent → Option WatchEvent
  | .begun _ => none
  | .raised s => some (.raised s)
  | .disposed i => if i = index then some .disposed else none

/-- The watched signal that is raised first, unless the watch is disposed of before. -/
def PortEvent.stop? (index : Nat) (watched : List StopSignal) : List PortEvent → Option StopSignal
  | [] => none
  | .begun _ :: rest => stop? index watched rest
  | .raised s :: rest => if s ∈ watched then some s else stop? index watched rest
  | .disposed i :: rest => if i = index then none else stop? index watched rest

namespace PortEvent

variable {index : Nat} {watched : List StopSignal} {s : StopSignal}

theorem stop?_isSome (sooner rest : List PortEvent) (hs : s ∈ watched)
    (undisposed : .disposed index ∉ sooner) :
    (stop? index watched (sooner ++ .raised s :: rest)).isSome := by
  induction sooner with
  | nil => simp [stop?, hs]
  | cons e sooner ih =>
    obtain ⟨other, later⟩ := not_or.1 (mt List.mem_cons.2 undisposed)
    cases e with
    | begun _ => exact ih later
    | raised t =>
      by_cases ht : t ∈ watched
      · simp [stop?, ht]
      · simpa [stop?, ht] using ih later
    | disposed i =>
      have ne : i ≠ index := fun h => other (h ▸ rfl)
      simpa [stop?, ne] using ih later

theorem stop?_eq_some {history : List PortEvent} : stop? index watched history = some s ↔
    ∃ sooner rest, history = sooner ++ .raised s :: rest ∧ s ∈ watched ∧
      .disposed index ∉ sooner ∧ ∀ t ∈ watched, .raised t ∉ sooner := by
  constructor
  · intro h
    induction history with
    | nil => cases h
    | cons e history ih =>
      -- an event that decides nothing goes in front of what comes before the deciding one
      have later (stops : stop? index watched history = some s) (undisposed : .disposed index ≠ e)
          (unheard : ∀ t ∈ watched, .raised t ≠ e) :
          ∃ sooner rest, e :: history = sooner ++ .raised s :: rest ∧ s ∈ watched ∧
            .disposed index ∉ sooner ∧ ∀ t ∈ watched, .raised t ∉ sooner := by
        obtain ⟨sooner, rest, rfl, hs, hd, hr⟩ := ih stops
        exact ⟨e :: sooner, rest, rfl, hs, mt List.mem_cons.1 (not_or.2 ⟨undisposed, hd⟩),
          fun t ht => mt List.mem_cons.1 (not_or.2 ⟨unheard t ht, hr t ht⟩)⟩
      cases e with
      | begun _ => exact later h (by simp) (by simp)
      | raised t =>
        by_cases ht : t ∈ watched
        · obtain rfl : t = s := by simpa [stop?, ht] using h
          exact ⟨[], history, rfl, ht, by simp, by simp⟩
        · have unheard : ∀ u ∈ watched, PortEvent.raised u ≠ .raised t := by
            rintro u hu ⟨⟩
            exact ht hu
          exact later (by simpa [stop?, ht] using h) (by simp) unheard
      | disposed i =>
        by_cases hi : i = index
        · simp [stop?, hi] at h
        · exact later (by simpa [stop?, hi] using h) (by simpa using Ne.symm hi) (by simp)
  · rintro ⟨sooner, rest, rfl, hs, undisposed, unheard⟩
    induction sooner with
    | nil => simp [stop?, hs]
    | cons e sooner ih =>
      obtain ⟨other, later⟩ := not_or.1 (mt List.mem_cons.2 undisposed)
      have rest := ih later fun t ht h => unheard t ht (List.mem_cons_of_mem e h)
      cases e with
      | begun _ => exact rest
      | raised t =>
        have ht : t ∉ watched := fun ht => unheard t ht (List.mem_cons_self ..)
        simpa [stop?, ht] using rest
      | disposed i =>
        have ne : i ≠ index := fun h => other (h ▸ rfl)
        simpa [stop?, ne] using rest

theorem stop?_isSome_iff {history : List PortEvent} : (stop? index watched history).isSome ↔
    ∃ sooner s rest, history = sooner ++ .raised s :: rest ∧ s ∈ watched ∧ .disposed index ∉ sooner := by
  constructor
  · intro h
    obtain ⟨s, hs⟩ := Option.isSome_iff_exists.1 h
    obtain ⟨sooner, rest, split, hs, undisposed, -⟩ := stop?_eq_some.1 hs
    exact ⟨sooner, s, rest, split, hs, undisposed⟩
  · rintro ⟨sooner, s, rest, rfl, hs, undisposed⟩
    exact stop?_isSome sooner rest hs undisposed

end PortEvent

/-! ## A watch by itself -/

namespace Watch

theorem raise_of_mem {w : Watch} {s : StopSignal} (h : s ∈ w.listening) :
    w.raise s = ⟨w.listening.filter (· != s), w.signal.or (some s.reason)⟩ := by
  simp [raise, h]

theorem raise_of_not_mem {w : Watch} {s : StopSignal} (h : s ∉ w.listening) : w.raise s = w := by
  simp [raise, h]

theorem mem_listening_raise (w : Watch) (s t : StopSignal) :
    t ∈ (w.raise s).listening ↔ t ≠ s ∧ t ∈ w.listening := by
  by_cases h : s ∈ w.listening
  · simp [raise_of_mem h, and_comm]
  · rw [raise_of_not_mem h]
    constructor
    · intro ht
      exact ⟨fun hts => h (hts ▸ ht), ht⟩
    · exact And.right

theorem signal_raise (w : Watch) (s : StopSignal) :
    (w.raise s).signal = if s ∈ w.listening then w.signal.or (some s.reason) else w.signal := by
  by_cases h : s ∈ w.listening
  · simp [raise_of_mem h, h]
  · simp [raise_of_not_mem h, h]

theorem after_aborted {w : Watch} {reason : AbortReason} (h : w.signal = some reason)
    (history : List WatchEvent) : (w.after history).signal = some reason := by
  induction history generalizing w with
  | nil => exact h
  | cons e history ih =>
    refine ih ?_
    cases e with
    | raised s =>
      rw [step, signal_raise, h]
      simp
    | disposed => exact h

theorem after_deaf {w : Watch} (h : w.listening = []) (history : List WatchEvent) :
    w.after history = w := by
  induction history generalizing w with
  | nil => rfl
  | cons e history ih =>
    have still : w.step e = w := by
      cases e with
      | raised s => exact raise_of_not_mem (by simp [h])
      | disposed =>
        obtain ⟨listening, signal⟩ := w
        exact congrArg (Watch.mk · signal) h.symm
    change (w.step e).after history = w
    rw [still]
    exact ih h

theorem after_disposed (w : Watch) {history : List WatchEvent} (h : .disposed ∈ history) :
    (w.after history).listening = [] := by
  obtain ⟨sooner, rest, rfl⟩ := List.mem_iff_append.1 h
  have split : w.after (sooner ++ .disposed :: rest) = (w.after sooner).dispose.after rest := by
    rw [after, List.foldl_append]
    rfl
  rw [split, after_deaf rfl]
  rfl

/-- The signal of a watch is aborted by the signal that stops it, and for that reason. -/
theorem signal_after_begin (index : Nat) (watched : List StopSignal) (history : List PortEvent) :
    ((Watch.begin watched).after (history.filterMap (·.own? index))).signal =
      (PortEvent.stop? index watched history).map (·.reason) := by
  induction history with
  | nil => rfl
  | cons e history ih =>
    cases e with
    | begun _ => exact ih
    | raised s =>
      change (((Watch.begin watched).raise s).after (history.filterMap (·.own? index))).signal = _
      by_cases hs : s ∈ watched
      · have aborted : ((Watch.begin watched).raise s).signal = some s.reason := by
          rw [raise_of_mem hs]
          rfl
        rw [after_aborted aborted]
        simp [PortEvent.stop?, hs]
      · rw [raise_of_not_mem hs, ih]
        simp [PortEvent.stop?, hs]
    | disposed i =>
      by_cases hi : i = index
      · have own : PortEvent.own? index (.disposed i) = some .disposed := by simp [PortEvent.own?, hi]
        rw [List.filterMap_cons_some own]
        change ((Watch.begin watched).dispose.after (history.filterMap (·.own? index))).signal = _
        rw [after_deaf rfl]
        simp [PortEvent.stop?, hi, Watch.dispose, Watch.begin]
      · have foreign : PortEvent.own? index (.disposed i) = none := by simp [PortEvent.own?, hi]
        rw [List.filterMap_cons_none foreign, ih]
        simp [PortEvent.stop?, hi]

end Watch

/-! ## Watches at a port -/

namespace PortWatch

theorem hear_handlers (w : PortWatch) (n : Nat) : (w.hear n).handlers = w.handlers := by
  unfold hear
  split <;> rfl

/-- A handler for a signal is called: it aborts with that signal's reason, if it is the watch's own. -/
theorem hear_signal {w : PortWatch} {s : StopSignal} {n : Nat}
    (only : ∀ r ∈ w.handlers, r.handler = n → r.signal = s) :
    (w.hear n).signal =
      if ∃ r ∈ w.handlers, r.handler = n then w.signal.or (some s.reason) else w.signal := by
  unfold hear
  split
  · next r found =>
    have mem := List.mem_of_find?_eq_some found
    have number : r.handler = n := by simpa using List.find?_some found
    rw [if_pos ⟨r, mem, number⟩, only r mem number]
  · next missing =>
    have none_own : ¬∃ r ∈ w.handlers, r.handler = n := by simpa using missing
    rw [if_neg none_own]

/-- Handlers for a signal are called one after another: those of the watch abort it once. -/
theorem heard {s : StopSignal} (delivered : List Nat) (w : PortWatch)
    (only : ∀ r ∈ w.handlers, r.handler ∈ delivered → r.signal = s) :
    (delivered.foldl hear w).handlers = w.handlers ∧
      (delivered.foldl hear w).signal =
        if ∃ r ∈ w.handlers, r.handler ∈ delivered then w.signal.or (some s.reason) else w.signal := by
  induction delivered generalizing w with
  | nil => simp
  | cons n delivered ih =>
    have same : (w.hear n).handlers = w.handlers := hear_handlers w n
    have first := hear_signal (w := w) (s := s) (n := n) fun r hr h => only r hr (by simp [h])
    obtain ⟨handlers, signal⟩ := ih (w.hear n) (by
      rw [same]
      exact fun r hr h => only r hr (List.mem_cons_of_mem n h))
    refine ⟨handlers.trans same, ?_⟩
    rw [List.foldl_cons, signal, same, first]
    simp only [List.mem_cons, and_or_left, exists_or]
    by_cases h₁ : ∃ r ∈ w.handlers, r.handler = n <;>
      by_cases h₂ : ∃ r ∈ w.handlers, r.handler ∈ delivered <;> simp [h₁, h₂]

end PortWatch

namespace Watchers

variable {port : SignalPort} {ws : Watchers port} {index : Nat}

def handlers (ws : Watchers port) : List Registration := ws.watches.flatMap (·.handlers)

/-- Handlers are numbered in order, and a registered one belongs to a watch. -/
structure Sound (ws : Watchers port) : Prop where
  numbered : ws.handlers.map (·.handler) = List.range ws.issued
  owned : ∀ r ∈ port.registered ws.state, r ∈ ws.handlers

theorem registrations_handler (first : Nat) (watched : List StopSignal) :
    (registrations first watched).map (·.handler) = List.range' first watched.length := by
  apply List.ext_getElem <;> simp [registrations]

theorem registrations_signal (first : Nat) (watched : List StopSignal) :
    (registrations first watched).map (·.signal) = watched := by
  apply List.ext_getElem <;> simp [registrations]

theorem mem_registered_once (added : List Registration) (p : port.State) (r : Registration) :
    r ∈ port.registered (added.foldl (fun p q => port.once q p) p) ↔
      r ∈ added ∨ r ∈ port.registered p := by
  induction added generalizing p with
  | nil => simp
  | cons q added ih =>
    rw [List.foldl_cons, ih, port.mem_once, List.mem_cons]
    tauto

theorem mem_registered_unsubscribe (removed : List Registration) (p : port.State) (r : Registration) :
    r ∈ port.registered (removed.foldl (fun p q => port.unsubscribe q p) p) ↔
      r ∉ removed ∧ r ∈ port.registered p := by
  induction removed generalizing p with
  | nil => simp
  | cons q removed ih =>
    rw [List.foldl_cons, ih, port.mem_unsubscribe, List.mem_cons]
    tauto

/-! ### One event -/

theorem raise_eq (ws : Watchers port) (s : StopSignal) :
    ws.raise s = { ws with
      state := (port.raise s ws.state).1
      watches := ws.watches.map ((port.raise s ws.state).2.foldl PortWatch.hear) } := by
  have each (delivered : List Nat) (watches : List PortWatch) :
      delivered.foldl (fun watches n => watches.map (·.hear n)) watches =
        watches.map (delivered.foldl PortWatch.hear) := by
    induction delivered generalizing watches with
    | nil => simp
    | cons n delivered ih => simp [ih]
  simp only [raise, each]

theorem handlers_begin (ws : Watchers port) (watched : List StopSignal) :
    (ws.begin watched).handlers = ws.handlers ++ registrations ws.issued watched := by
  simp [handlers, begin]

theorem handlers_raise (ws : Watchers port) (s : StopSignal) : (ws.raise s).handlers = ws.handlers := by
  have each (delivered : List Nat) (w : PortWatch) :
      (delivered.foldl PortWatch.hear w).handlers = w.handlers := by
    induction delivered generalizing w with
    | nil => rfl
    | cons n delivered ih => rw [List.foldl_cons, ih, PortWatch.hear_handlers]
  simp [handlers, raise_eq, List.flatMap_map, each]

theorem dispose_of_some {w : PortWatch} (h : ws.watches[index]? = some w) : ws.dispose index =
    { ws with state := w.handlers.foldl (fun p r => port.unsubscribe r p) ws.state } := by
  simp [dispose, h]

theorem dispose_of_none (h : ws.watches[index]? = none) : ws.dispose index = ws := by
  simp [dispose, h]

theorem Sound.step (h : Sound ws) (e : PortEvent) : Sound (ws.step e) := by
  cases e with
  | begun watched =>
    refine ⟨?_, fun r hr => ?_⟩
    · change (ws.begin watched).handlers.map _ = List.range (ws.issued + watched.length)
      have joined : List.range' 0 ws.issued ++ List.range' (0 + ws.issued) watched.length =
          List.range' 0 (ws.issued + watched.length) := List.range'_append_1
      rw [handlers_begin, List.map_append, h.numbered, registrations_handler, List.range_eq_range',
        List.range_eq_range', ← joined, Nat.zero_add]
    · change r ∈ (ws.begin watched).handlers
      rw [handlers_begin, List.mem_append]
      obtain new | old := (mem_registered_once _ _ _).1 hr
      · exact .inr new
      · exact .inl (h.owned r old)
  | raised s =>
    refine ⟨?_, fun r hr => ?_⟩
    · change (ws.raise s).handlers.map _ = List.range ws.issued
      rw [handlers_raise, h.numbered]
    · change r ∈ (ws.raise s).handlers
      rw [handlers_raise]
      exact h.owned r ((port.mem_raise _ _ _).1 hr).2
  | disposed index =>
    change Sound (ws.dispose index)
    cases hw : ws.watches[index]? with
    | none => rwa [dispose_of_none hw]
    | some w =>
      rw [dispose_of_some hw]
      exact ⟨h.numbered, fun r hr => h.owned r ((mem_registered_unsubscribe _ _ _).1 hr).2⟩

theorem sound_after (port : SignalPort) (history : List PortEvent) : Sound (after port history) := by
  have run (history : List PortEvent) {ws : Watchers port} (h : Sound ws) :
      Sound (history.foldl step ws) := by
    induction history generalizing ws with
    | nil => exact h
    | cons e history ih => exact ih (h.step e)
  refine run history ⟨rfl, fun r hr => ?_⟩
  rw [idle, port.registered_idle] at hr
  cases hr

/-! ### What the numbers say -/

variable {w v : PortWatch}

theorem mem_handlers {r : Registration} (hw : ws.watches[index]? = some w) (hr : r ∈ w.handlers) :
    r ∈ ws.handlers :=
  List.mem_flatMap.2 ⟨w, List.mem_of_getElem? hw, hr⟩

theorem Sound.eq_own (h : Sound ws) (hw : ws.watches[index]? = some w) {r q : Registration}
    (hr : r ∈ w.handlers) (hq : q ∈ port.registered ws.state) (same : r.handler = q.handler) : r = q := by
  have distinct : (ws.handlers.map (·.handler)).Nodup := h.numbered ▸ List.nodup_range
  exact List.inj_on_of_nodup_map distinct (mem_handlers hw hr) (h.owned q hq) same

theorem Sound.called_iff (h : Sound ws) (hw : ws.watches[index]? = some w) {r : Registration}
    (hr : r ∈ w.handlers) (s : StopSignal) :
    r.handler ∈ (port.raise s ws.state).2 ↔ r.signal = s ∧ r ∈ port.registered ws.state := by
  rw [port.mem_delivered]
  constructor
  · intro called
    have own : r = ⟨r.handler, s⟩ := h.eq_own hw hr called rfl
    exact ⟨congrArg (·.signal) own, own ▸ called⟩
  · rintro ⟨rfl, registered⟩
    exact registered

theorem Sound.disjoint (h : Sound ws) {i j : Nat} (hw : ws.watches[i]? = some w)
    (hv : ws.watches[j]? = some v) (ne : i ≠ j) {r : Registration} (hr : r ∈ w.handlers) :
    r ∉ v.handlers := by
  have distinct : ws.handlers.Nodup := .of_map (·.handler) (h.numbered ▸ List.nodup_range)
  have apart := List.pairwise_iff_getElem.1 (List.nodup_flatMap.1 distinct).2
  obtain ⟨hi, rfl⟩ := List.getElem?_eq_some_iff.1 hw
  obtain ⟨hj, rfl⟩ := List.getElem?_eq_some_iff.1 hv
  intro hr'
  obtain lt | gt := Nat.lt_or_gt_of_ne ne
  · exact apart i j hi hj lt hr hr'
  · exact apart j i hj hi gt hr' hr

/-! ### A watch at a port and by itself -/

/-- A watch at a port has the signal of one by itself, which listens for what has a handler registered. -/
structure Mirrors (ws : Watchers port) (w : PortWatch) (v : Watch) : Prop where
  signal : w.signal = v.signal
  listening : ∀ s, s ∈ v.listening ↔ ∃ r ∈ w.handlers, r.signal = s ∧ r ∈ port.registered ws.state

/-- A watch by itself after an event at the port. -/
def follow (index : Nat) (v : Watch) (e : PortEvent) : Watch := ((e.own? index).map v.step).getD v

/-- Each event at a port is to its watch what it is to the watch by itself. -/
theorem Mirrors.step {v : Watch} (h : Sound ws) (hw : ws.watches[index]? = some w)
    (m : Mirrors ws w v) (e : PortEvent) :
    ∃ w', (ws.step e).watches[index]? = some w' ∧ w'.handlers = w.handlers ∧
      Mirrors (ws.step e) w' (follow index v e) := by
  cases e with
  | begun watched =>
    obtain ⟨inside, -⟩ := List.getElem?_eq_some_iff.1 hw
    refine ⟨w, ?_, rfl, m.signal, fun s => (m.listening s).trans ?_⟩
    · exact (List.getElem?_append_left inside).trans hw
    · -- the new handlers have new numbers, so none of them is this watch's own
      refine exists_congr fun r => and_congr_right fun hr => and_congr_right fun _ => ?_
      have old : r ∉ registrations ws.issued watched := by
        intro new
        have low : r.handler ∈ List.range ws.issued :=
          h.numbered ▸ List.mem_map_of_mem (mem_handlers hw hr)
        have high := List.mem_map_of_mem (f := (·.handler)) new
        rw [registrations_handler, List.mem_range'_1] at high
        have := List.mem_range.1 low
        omega
      exact ((mem_registered_once _ _ r).trans (or_iff_right old)).symm
  | raised s =>
    have called {r : Registration} (hr : r ∈ w.handlers) := h.called_iff hw hr s
    obtain ⟨handlers, signal⟩ := w.heard (port.raise s ws.state).2 fun r hr h => ((called hr).1 h).1
    have some_called : (∃ r ∈ w.handlers, r.handler ∈ (port.raise s ws.state).2) ↔ s ∈ v.listening := by
      rw [m.listening]
      exact exists_congr fun r => and_congr_right called
    refine ⟨_, ?_, handlers, ?_, fun t => ?_⟩
    · change (ws.raise s).watches[index]? = _
      rw [raise_eq, List.getElem?_map, hw]
      rfl
    · rw [signal, m.signal]
      simp only [some_called]
      exact (v.signal_raise s).symm
    · change t ∈ (v.raise s).listening ↔ _
      rw [v.mem_listening_raise, m.listening, handlers]
      change _ ↔ ∃ r ∈ w.handlers, r.signal = t ∧ r ∈ port.registered (ws.raise s).state
      simp only [raise_eq, port.mem_raise]
      constructor
      · rintro ⟨ne, r, hr, rfl, registered⟩
        exact ⟨r, hr, rfl, ne, registered⟩
      · rintro ⟨r, hr, rfl, ne, registered⟩
        exact ⟨ne, r, hr, rfl, registered⟩
  | disposed i =>
    by_cases hi : i = index
    · subst hi
      have own : follow i v (.disposed i) = v.dispose := by simp [follow, PortEvent.own?, Watch.step]
      change ∃ w', (ws.dispose i).watches[i]? = some w' ∧ _
      rw [own, Watchers.step, dispose_of_some hw]
      refine ⟨w, hw, rfl, m.signal, fun s => ?_⟩
      simp +contextual [Watch.dispose, mem_registered_unsubscribe]
    · have foreign : follow index v (.disposed i) = v := by simp [follow, PortEvent.own?, hi]
      rw [foreign, Watchers.step]
      cases hu : ws.watches[i]? with
      | none =>
        rw [dispose_of_none hu]
        exact ⟨w, hw, rfl, m⟩
      | some u =>
        rw [dispose_of_some hu]
        refine ⟨w, hw, rfl, m.signal, fun s => (m.listening s).trans ?_⟩
        refine exists_congr fun r => and_congr_right fun hr => and_congr_right fun _ => ?_
        have other : r ∉ u.handlers := h.disjoint hw hu (Ne.symm hi) hr
        exact ((mem_registered_unsubscribe _ _ r).trans (and_iff_right other)).symm

theorem Mirrors.run {v : Watch} (h : Sound ws) (hw : ws.watches[index]? = some w)
    (m : Mirrors ws w v) (history : List PortEvent) :
    ∃ w', (history.foldl Watchers.step ws).watches[index]? = some w' ∧ w'.handlers = w.handlers ∧
      Mirrors (history.foldl Watchers.step ws) w' (v.after (history.filterMap (·.own? index))) := by
  induction history generalizing ws w v with
  | nil => exact ⟨w, hw, rfl, m⟩
  | cons e history ih =>
    obtain ⟨w', hw', handlers, m'⟩ := m.step h hw e
    obtain ⟨w'', hw'', same, m''⟩ := ih (h.step e) hw' m'
    refine ⟨w'', hw'', same.trans handlers, ?_⟩
    have followed : (follow index v e).after (history.filterMap (·.own? index)) =
        v.after ((e :: history).filterMap (·.own? index)) := by
      unfold follow
      cases own : e.own? index with
      | none => rw [List.filterMap_cons_none own]; rfl
      | some own' => rw [List.filterMap_cons_some own]; rfl
    exact followed ▸ m''

theorem mirrors_begin (ws : Watchers port) (watched : List StopSignal) :
    Mirrors (ws.begin watched) ⟨registrations ws.issued watched, none⟩ (Watch.begin watched) := by
  refine ⟨rfl, fun s => ?_⟩
  change s ∈ watched ↔ _
  constructor
  · intro hs
    rw [← registrations_signal ws.issued watched] at hs
    obtain ⟨r, hr, rfl⟩ := List.mem_map.1 hs
    exact ⟨r, hr, rfl, (mem_registered_once _ _ r).2 (.inl hr)⟩
  · rintro ⟨r, hr, rfl, -⟩
    rw [← registrations_signal ws.issued watched]
    exact List.mem_map_of_mem hr

/-- **A shutdown watch over any history of its port**, whatever happens before and after it begins. Its
    signal is aborted exactly if a signal that it listens for is raised before it is disposed of. The first
    such signal fixes the reason, so that a cancelled run names it. Once the watch is disposed of, none of
    its handlers is registered. In all this it is the watch by itself that the program runs with, whose
    listeners are the handlers still registered. -/
theorem shutdown_settled (port : SignalPort) (before later : List PortEvent)
    (watched : List StopSignal) :
    let index := (after port before).watches.length
    let now := after port (before ++ .begun watched :: later)
    ∃ w, now.watches[index]? = some w ∧ w.handlers.map (·.signal) = watched ∧
      (w.signal.isSome ↔ ∃ sooner s rest, later = sooner ++ .raised s :: rest ∧ s ∈ watched ∧
        .disposed index ∉ sooner) ∧
      (∀ sooner s rest, later = sooner ++ .raised s :: rest → s ∈ watched → .disposed index ∉ sooner →
        (∀ t ∈ watched, .raised t ∉ sooner) →
        w.signal = some s.reason ∧ CallError.cancelledBy s.reason =
          .cancelled ("Invocation cancelled: received " ++ s.name) ("received " ++ s.name)) ∧
      (.disposed index ∈ later → ∀ r ∈ w.handlers, r ∉ port.registered now.state) ∧
      Mirrors now w ((Watch.begin watched).after (later.filterMap (·.own? index))) := by
  intro index now
  have sound := sound_after port before
  have begun : ((after port before).begin watched).watches[index]? =
      some ⟨registrations (after port before).issued watched, none⟩ := by simp [begin, index]
  obtain ⟨w, hw, handlers, mirrors⟩ :=
    (mirrors_begin (after port before) watched).run (sound.step (.begun watched)) begun later
  have split : now = later.foldl step ((after port before).step (.begun watched)) := by
    simp only [now, after, List.foldl_append]
    rfl
  rw [← split] at hw mirrors
  have signal : w.signal = (PortEvent.stop? index watched later).map (·.reason) :=
    mirrors.signal.trans (Watch.signal_after_begin index watched later)
  refine ⟨w, hw, ?_, ?_, ?_, ?_, mirrors⟩
  · rw [handlers, registrations_signal]
  · rw [signal, Option.isSome_map, PortEvent.stop?_isSome_iff]
  · intro sooner s rest split hs undisposed unheard
    have first := PortEvent.stop?_eq_some.2 ⟨sooner, rest, split, hs, undisposed, unheard⟩
    refine ⟨?_, rfl⟩
    rw [signal, first]
    rfl
  · intro disposed r hr registered
    have own : .disposed ∈ later.filterMap (·.own? index) :=
      List.mem_filterMap.2 ⟨_, disposed, by simp [PortEvent.own?]⟩
    have listening : r.signal ∈ ((Watch.begin watched).after (later.filterMap (·.own? index))).listening :=
      (mirrors.listening _).2 ⟨r, hr, rfl, registered⟩
    rw [Watch.after_disposed _ own] at listening
    cases listening

/-- The second signal comes too late to be named, and no handler is left, though one has been called and
    the other watch has its own. -/
theorem second_signal_too_late :
    let later : List PortEvent := [.raised .terminate, .raised .interrupt, .disposed 1]
    let now := after .table ([.begun [.interrupt]] ++ .begun StopSignal.all :: later)
    ∃ w, now.watches[1]? = some w ∧ w.signal = some (.error "received SIGTERM" []) ∧
      ∀ r ∈ w.handlers, r ∉ SignalPort.table.registered now.state := by
  obtain ⟨w, hw, -, -, named, unregistered, -⟩ := shutdown_settled .table [.begun [.interrupt]]
    [.raised .terminate, .raised .interrupt, .disposed 1] StopSignal.all
  obtain ⟨signal, -⟩ := named [] .terminate _ rfl (by decide) (by simp) (by simp)
  exact ⟨w, hw, signal, unregistered (by simp [after, step, begin, idle])⟩

end Watchers

end Lifecycle
