import Lifecycle.CommandLine.Program
import Lifecycle.Proofs.Log.Hidden
import Lifecycle.Proofs.Run.Steps

/- Credentials in callback contexts do not reach the log, but for one kind.

   Two handlers answer alike, except for credentials in the contexts of their responses. The
   runs against them go in step (`Run.Alike`): they make the same demands and write the same
   lines, since the one entry that shows a context shows it with its credentials hidden. One
   lemma for each function of the machine says so, and the rest is an induction over the
   demands. What is not hidden is a session token in an object member of a context; its line
   tells two such handlers apart. -/
namespace Lifecycle

/-! ## Lines -/

/-- The lines that a logger writes of a trace. -/
def linesOf (logger : Logger) (trace : List Happening) : List Text :=
  (notesOf trace).flatMap fun note => logger.write note.entry

/-- The lines that a logger writes of a run. -/
def Run.lines (logger : Logger) (r : Run) : List Text :=
  linesOf (logger.child (runBindings r.state.request)) r.trace

theorem linesOf_append (logger : Logger) (a b : List Happening) :
    linesOf logger (a ++ b) = linesOf logger a ++ linesOf logger b := by
  simp only [linesOf, notesOf, List.filterMap_append, List.flatMap_append]

/-- Two contexts that are the same but for hidden credentials. -/
def SameButHidden (context context' : Value) : Prop :=
  context = context' ∨ ContextsAlike hiddenNested context context'

theorem memberText_invoking (invocation : Double) (ms : Members) :
    Logger.memberText (RunNote.invoking invocation (.object ms)).members =
      Logger.part (Json.quote "invocation") (.number invocation) ++
        Logger.part (Json.quote "callbackContext")
          (Redaction.hide (Redaction.below "callbackContext" Redaction.paths) (.object ms)) := by
  have named : ("invocation" : Text) ≠ Log.errorName := by decide
  have named' : ("callbackContext" : Text) ≠ Log.errorName := by decide
  have visible : Redaction.isSelected (Redaction.below "invocation" Redaction.paths) = false := by decide
  have visible' : Redaction.isSelected (Redaction.below "callbackContext" Redaction.paths) = false := by
    decide
  simp [Logger.memberText, RunNote.members, Value.isUndefined, Value.isFunction, Log.withError, named, named',
    Redaction.redact, Redaction.hideMembers, visible, visible', Redaction.hide]

theorem subject_invoking (invocation : Double) (context : Value) :
    Log.subject (RunNote.invoking invocation context).members =
      (RunNote.invoking invocation context).members := by
  have plain : Log.isRequest (RunNote.invoking invocation context).members = false := rfl
  rw [Log.subject, plain]
  rfl

theorem write_invoking (logger : Logger) (invocation : Double) {context context' : Value}
    (h : SameButHidden context context') :
    logger.write (RunNote.invoking invocation context).entry =
      logger.write (RunNote.invoking invocation context').entry := by
  obtain rfl | alike := h
  · rfl
  · have hidden := alike.hide_eq
    obtain ⟨-⟩ := alike
    have members := memberText_invoking invocation
    simp only [Logger.write, Logger.line, RunNote.entry, subject_invoking, members, hidden]
    rfl

/-! ## Runs that go in step -/

/-- Two stages of one kind; the event or the error of a run that is over may differ. -/
inductive Stage.Alike : Stage → Stage → Prop where
  | pending : Alike .pending .pending
  | running : Alike .running .running
  | continuing (delay : Double) : Alike (.continuing delay) (.continuing delay)
  | succeeded (e e' : SuccessEvent) : Alike (.succeeded e) (.succeeded e')
  | failed (e e' : FailedEvent) : Alike (.failed e) (.failed e')
  | exhausted (e e' : InProgressEvent) : Alike (.exhausted e) (.exhausted e')
  | errored (e e' : RunError) : Alike (.errored e) (.errored e')

theorem Stage.Alike.name {stage stage' : Stage} (h : stage.Alike stage') : stage.name = stage'.name := by
  cases h <;> rfl

theorem Stage.Alike.isTerminal {stage stage' : Stage} (h : stage.Alike stage') :
    stage.isTerminal = stage'.isTerminal := by
  cases h <;> rfl

/-- Two requests that differ in hidden credentials of their contexts alone. -/
def Request.Alike (q q' : Request) : Prop :=
  ∃ context, q' = q.withCallbackContext context ∧ SameButHidden q.callbackContext context

/-- Two states that agree in all that decides what is done next and what is logged of it. -/
structure RunState.Alike (s s' : RunState) : Prop where
  stage : s.stage.Alike s'.stage
  count : s.invocationCount = s'.invocationCount
  budget : s.budget = s'.budget
  request : s.request.Alike s'.request
  last : s.lastEvent.map Event.status = s'.lastEvent.map Event.status

namespace RunState.Alike

variable {s s' : RunState}

theorem initial (request : Request) (budget : Budget) :
    (RunState.initial request budget).Alike (.initial request budget) :=
  ⟨.pending, rfl, rfl, ⟨request.callbackContext, rfl, .inl rfl⟩, rfl⟩

theorem isTerminal (h : s.Alike s') : s.isTerminal = s'.isTerminal := h.stage.isTerminal

theorem fail (h : s.Alike s') (e e' : RunError) : (s.fail e).Alike (s'.fail e') :=
  ⟨.errored e e', h.count, h.budget, h.request, h.last⟩

theorem lastEvent (h : s.Alike s') :
    (∃ e e', s.lastEvent = some (.inProgress e) ∧ s'.lastEvent = some (.inProgress e')) ∨
      ((∀ e, s.lastEvent ≠ some (.inProgress e)) ∧ ∀ e, s'.lastEvent ≠ some (.inProgress e)) := by
  have last := h.last
  cases hl : s.lastEvent with
  | none =>
    rw [hl, Option.map_none, eq_comm, Option.map_eq_none_iff] at last
    simp [last]
  | some event =>
    rw [hl, Option.map_some, eq_comm, Option.map_eq_some_iff] at last
    obtain ⟨event', hl', status⟩ := last
    rw [hl']
    cases event <;> cases event' <;> simp [Event.status] at status ⊢

theorem countCall (h : s.Alike s') : (∃ e, s.countCall = .error e ∧ s'.countCall = .error e) ∨
    ∃ t t', s.countCall = .ok t ∧ s'.countCall = .ok t' ∧ t.Alike t' := by
  simp only [RunState.countCall, ← h.budget, ← h.count]
  split
  · exact .inr ⟨_, _, rfl, rfl, .running, rfl, rfl, h.request, h.last⟩
  -- past the budget all that counts of the last event is whether it was in progress
  · obtain ⟨e, e', he, he'⟩ | ⟨none, none'⟩ := h.lastEvent
    · rw [he, he']
      exact .inr ⟨_, _, rfl, rfl, .exhausted e e', rfl, rfl, h.request, rfl⟩
    · left
      refine ⟨.nothingInProgress, ?_, ?_⟩
      · split
        · exact absurd (by assumption) (none _)
        · rfl
      · split
        · exact absurd (by assumption) (none' _)
        · rfl

theorem begin (h : s.Alike s') : (∃ e, s.begin = .error e ∧ s'.begin = .error e) ∨
    ∃ t t', s.begin = .ok t ∧ s'.begin = .ok t' ∧ t.Alike t' := by
  have stages := h.stage
  have counted := h.countCall
  unfold RunState.begin
  generalize s.stage = stage at stages
  generalize s'.stage = stage' at stages
  cases stages with
  | pending => exact counted
  | continuing => exact counted
  | _ => exact .inl ⟨_, rfl, rfl⟩

theorem apply (h : s.Alike s') {event event' : Event} (alike : event.Alike hiddenNested event')
    (warnings : List Warning) : (s.apply ⟨event, warnings⟩).Alike (s'.apply ⟨event', warnings⟩) := by
  cases alike with
  | success e e' => exact ⟨.succeeded e e', h.count, h.budget, h.request, rfl⟩
  | failed e e' => exact ⟨.failed e e', h.count, h.budget, h.request, rfl⟩
  | @inProgress e e' context delay =>
    have seconds : e.delaySeconds = e'.delaySeconds := by
      rw [InProgressEvent.delaySeconds, InProgressEvent.delaySeconds, delay]
    refine ⟨?_, h.count, h.budget, ?_, rfl⟩
    · simp only [RunState.apply, seconds]
      exact .continuing _
    · obtain ⟨earlier, request, -⟩ := h.request
      refine ⟨e'.callbackContext, ?_, context⟩
      simp only [RunState.apply, request]
      rfl

end RunState.Alike

/-- Two runs that go in step: they demand the same and have written the same. -/
structure Run.Alike (r r' : Run) : Prop where
  state : r.state.Alike r'.state
  demand : r.demand = r'.demand
  lines : ∀ logger, linesOf logger r.trace = linesOf logger r'.trace

namespace Run.Alike

variable {r r' : Run}

theorem add (h : r.Alike r') {more more' : List Happening}
    (same : ∀ logger, linesOf logger more = linesOf logger more') : (r.add more).Alike (r'.add more') := by
  refine ⟨h.state, h.demand, ?_⟩
  intro logger
  simp only [Run.add, linesOf_append, h.lines, same]

theorem finish (h : r.Alike r') : r.finish.Alike r'.finish := by
  have added : (r.add [.noted (.finished r.state.stage.name r.state.invocationCount)]).Alike
      (r'.add [.noted (.finished r'.state.stage.name r'.state.invocationCount)]) := by
    apply h.add
    intro logger
    rw [h.state.stage.name, h.state.count]
  exact ⟨added.state, rfl, added.lines⟩

theorem fail (h : r.Alike r') (e e' : RunError) : (r.fail e).Alike (r'.fail e') := by
  apply finish
  exact ⟨h.state.fail e e', h.demand, h.lines⟩

theorem crash (h : r.Alike r') (fault : Fault) : (r.crash fault).Alike (r'.crash fault) :=
  ⟨h.state, rfl, h.lines⟩

theorem callNext (h : r.Alike r') (signal : Signal) : (r.callNext signal).Alike (r'.callNext signal) := by
  cases signal with
  | some reason => exact h.fail _ _
  | none =>
    unfold Run.callNext
    obtain ⟨e, hs, hs'⟩ | ⟨t, t', hs, hs', alike⟩ := h.state.begin
    · rw [hs, hs']
      exact h.crash _
    · simp only [hs, hs', alike.isTerminal]
      split
      · apply finish
        exact ⟨alike, h.demand, h.lines⟩
      · refine ⟨alike, rfl, ?_⟩
        intro logger
        -- the one entry that shows a context
        obtain ⟨context, request, same⟩ := alike.request
        have shown := write_invoking logger t.invocationCount same
        show linesOf logger (r.trace ++ _) = linesOf logger (r'.trace ++ _)
        rw [linesOf_append, linesOf_append, h.lines, ← alike.count, request]
        simp only [linesOf, notesOf, List.filterMap_cons, List.filterMap_nil, List.flatMap_cons,
          List.flatMap_nil, shown]
        rfl

theorem proceed (h : r.Alike r') (signal : Signal) : (r.proceed signal).Alike (r'.proceed signal) := by
  have stages := h.state.stage
  unfold Run.proceed
  generalize r.state.stage = stage at stages
  generalize r'.state.stage = stage' at stages
  cases stages with
  | pending => exact h.callNext signal
  | continuing delay =>
    simp only [h.state.budget, h.state.count]
    split
    · have added : (r.add [.noted (.waiting delay), .waited (delay.scale 1000)]).Alike
          (r'.add [.noted (.waiting delay), .waited (delay.scale 1000)]) := h.add fun _ => rfl
      exact ⟨added.state, rfl, added.lines⟩
    · exact h.callNext signal
  | _ => exact h.finish

theorem start (plan : Plan) (budget : Budget) (signal : Signal) :
    (Run.start plan budget signal).Alike (.start plan budget signal) :=
  proceed ⟨.initial plan.request budget, rfl, fun _ => rfl⟩ signal

theorem resumeWait (h : r.Alike r') (error : Option CallError) (signal : Signal) :
    (r.resumeWait error signal).Alike (r'.resumeWait error signal) := by
  cases error with
  | some e => exact h.fail _ _
  | none => exact h.callNext signal

/-- A run that gets the one of two responses goes on like one that gets the other. -/
theorem resumeCall (h : r.Alike r') {response response' : Value}
    (verdicts : Envelope.VerdictsAlike hiddenNested (Envelope.check response) (Envelope.check response'))
    (signal : Signal) :
    (r.resumeCall (.responded response) signal).Alike (r'.resumeCall (.responded response') signal) := by
  simp only [Run.resumeCall]
  generalize Envelope.check response = verdict at verdicts
  generalize Envelope.check response' = verdict' at verdicts
  cases verdicts with
  | rejected e e' => exact h.fail _ _
  | accepted events warnings =>
    apply proceed
    refine ⟨h.state.apply events warnings, h.demand, ?_⟩
    intro logger
    show linesOf logger (r.trace ++ reportNotes _ _) = linesOf logger (r'.trace ++ reportNotes _ _)
    rw [linesOf_append, linesOf_append, h.lines, h.state.count, Run.reportNotes, Run.reportNotes,
      events.status]

theorem lines_eq (h : r.Alike r') (logger : Logger) : r.lines logger = r'.lines logger := by
  obtain ⟨context, request, -⟩ := h.state.request
  rw [Run.lines, Run.lines, h.lines, request]
  rfl

end Run.Alike

/-! ## Handlers that answer alike -/

/-- Two answers that differ in credentials of contexts alone. -/
inductive Answer.Alike (nested : List Text) : Answer → Answer → Prop where
  | same (a : Answer) : Alike nested a a
  | responses {response response' : Value} (h : ResponsesAlike nested response response') :
      Alike nested (.respond response) (.respond response')

/-- Two scripts whose answers differ in credentials of contexts alone. -/
structure Script.Alike (nested : List Text) (script script' : Script) : Prop where
  answers : List.Forall₂ (Answer.Alike nested) script.answers script'.answers
  abort : script.abort = script'.abort

theorem forall₂_getElem? {α : Type} {R : α → α → Prop} {xs ys : List α} (h : List.Forall₂ R xs ys)
    (n : Nat) : (xs[n]? = none ∧ ys[n]? = none) ∨ ∃ x y, xs[n]? = some x ∧ ys[n]? = some y ∧ R x y := by
  induction h generalizing n with
  | nil => exact .inl ⟨rfl, rfl⟩
  | @cons x y xs ys related _ ih =>
    cases n with
    | zero => exact .inr ⟨x, y, rfl, rfl, related⟩
    | succ n =>
      rw [List.getElem?_cons_succ, List.getElem?_cons_succ]
      exact ih n

namespace Script.Alike

variable {nested : List Text} {script script' : Script}

theorem answer (h : script.Alike nested script') (n : Nat) :
    (script.answer n).Alike nested (script'.answer n) := by
  unfold Script.answer
  obtain ⟨none, none'⟩ | ⟨a, a', some, some', alike⟩ := forall₂_getElem? h.answers n
  · -- past its end a script repeats its last answer
    rw [none, none', List.getLast?_eq_getElem?, List.getLast?_eq_getElem?, h.answers.length_eq]
    obtain ⟨none, none'⟩ | ⟨a, a', some, some', alike⟩ :=
      forall₂_getElem? h.answers (script'.answers.length - 1)
    · rw [none, none']
      exact .same _
    · rw [some, some']
      exact alike
  · rw [some, some']
    exact alike

theorem signalAfter (h : script.Alike nested script') (point : AbortPoint) (signal : Signal) :
    script.signalAfter point signal = script'.signalAfter point signal := by
  simp only [Script.signalAfter, h.abort]

end Script.Alike

namespace Session

variable {script script' : Script} {s s' : Session} {r r' : Run}

/-- Two sessions whose runs go in step. -/
structure Alike (s : Session) (r : Run) (s' : Session) (r' : Run) : Prop where
  calls : s.calls.length = s'.calls.length
  waits : s.waits.length = s'.waits.length
  signal : s.signal = s'.signal
  run : r.Alike r'

theorem Alike.serve (hs : script.Alike hiddenNested script') (h : Alike s r s' r') :
    (Session.serve script s r = none ∧ Session.serve script' s' r' = none) ∨
      ∃ t q t' q', Session.serve script s r = some (t, q) ∧
        Session.serve script' s' r' = some (t', q') ∧ Alike t q t' q' := by
  obtain ⟨calls, waits, signal, run⟩ := h
  have demand := run.demand
  unfold Session.serve
  rw [← demand]
  cases r.demand with
  | nothing => exact .inl ⟨rfl, rfl⟩
  | crashed fault => exact .inl ⟨rfl, rfl⟩
  | wait ms =>
    right
    refine ⟨_, _, _, _, rfl, rfl, calls, by simp [waits], ?_, ?_⟩
    · simp only [hs.signalAfter, waits, signal]
    · simp only [hs.signalAfter, waits, signal]
      exact run.resumeWait _ _
  | call =>
    have answers := hs.answer s.calls.length
    simp only [hs.signalAfter, calls, signal] at answers ⊢
    generalize script'.signalAfter (.call (s'.calls.length + 1)) s'.signal = now
    have next {result result' : CallResult} (alike : (r.resumeCall result now).Alike (r'.resumeCall result' now)) :
        Alike ⟨s.calls ++ [(r.target, r.state.request)], s.waits, now⟩ (r.resumeCall result now)
          ⟨s'.calls ++ [(r'.target, r'.state.request)], s'.waits, now⟩ (r'.resumeCall result' now) :=
      ⟨by simp [calls], waits, rfl, alike⟩
    generalize script.answer s'.calls.length = a at answers
    generalize script'.answer s'.calls.length = a' at answers
    cases answers with
    | responses alike =>
      exact .inr ⟨_, _, _, _, rfl, rfl, next (run.resumeCall (Envelope.check_alike alike) now)⟩
    | same a =>
      cases a with
      | respond response => exact .inr ⟨_, _, _, _, rfl, rfl, next (run.resumeCall (.refl _) now)⟩
      | fail e => exact .inr ⟨_, _, _, _, rfl, rfl, next (run.fail _ _)⟩
      | crash message => exact .inr ⟨_, _, _, _, rfl, rfl, next (run.crash _)⟩
      -- a call that hangs is served only after an abort, which comes to both runs or to neither
      | hang =>
        cases now with
        | none => exact .inl ⟨rfl, rfl⟩
        | some reason => exact .inr ⟨_, _, _, _, rfl, rfl, next (run.fail _ _)⟩

theorem Alike.play (hs : script.Alike hiddenNested script') (h : Alike s r s' r') (fuel : Nat) :
    (Session.play script fuel s r).2.Alike (Session.play script' fuel s' r').2 := by
  induction fuel generalizing s r s' r' with
  | zero => exact h.run
  | succ fuel ih =>
    simp only [Session.play] at ih ⊢
    obtain ⟨none, none'⟩ | ⟨t, q, t', q', some, some', next⟩ := h.serve hs
    · rw [Run.drive_idle none, Run.drive_idle none']
      exact h.run
    · rw [Run.drive_next some, Run.drive_next some']
      exact ih next

theorem alike_begin (hs : script.Alike hiddenNested script') (plan : Plan) (budget : Budget) :
    Alike (.begin script) (.start plan budget (Session.begin script).signal)
      (.begin script') (.start plan budget (Session.begin script').signal) := by
  have signal : (Session.begin script).signal = (Session.begin script').signal := hs.signalAfter .start none
  refine ⟨rfl, rfl, signal, ?_⟩
  rw [signal]
  exact .start plan budget _

/-- **Credentials in a callback context are not logged**, for all loggers and at all levels: two handlers
    whose answers differ in secret access keys, directly in a context or in an object member of it, and in
    session tokens directly in it, lead to the same lines after every demand of the run. So do the lines of
    the program itself. -/
theorem credentials_hidden (hs : script.Alike hiddenNested script') (plan : Plan) (budget : Budget)
    (fuel : Nat) :
    let r := (Session.play script fuel (.begin script)
      (.start plan budget (Session.begin script).signal)).2
    let r' := (Session.play script' fuel (.begin script')
      (.start plan budget (Session.begin script').signal)).2
    (∀ logger, r.lines logger = r'.lines logger) ∧
      ∀ environment verbosity, CommandLine.runLog environment verbosity (some r) =
        CommandLine.runLog environment verbosity (some r') := by
  intro r r'
  have alike : r.Alike r' := (alike_begin hs plan budget).play hs fuel
  refine ⟨alike.lines_eq, ?_⟩
  intro environment verbosity
  exact alike.lines_eq _

/-- Responses in progress with credentials in two places, one of them below a member. -/
theorem access_keys_hidden :
    let waiting (key token inner : Text) : Answer := .respond (.object [("status", .text "IN_PROGRESS"),
      ("callbackContext", .object [("secretAccessKey", .text key), ("sessionToken", .text token),
        ("source", .object [("secretAccessKey", .text inner), ("region", .text "eu")])])])
    let script (key token inner : Text) : Script :=
      ⟨[waiting key token inner, .respond (.object [("status", .text "SUCCESS")])], none⟩
    let plan : Plan :=
      ⟨⟨"http://localhost", "handler"⟩, ⟨.create, .object [], .object [], "token-1"⟩⟩
    let run (script : Script) := (Session.play script 3 (.begin script)
      (.start plan .unbounded (Session.begin script).signal)).2
    (script "k" "t" "i").Alike hiddenNested (script "l" "u" "j") ∧
      (callsOf (run (script "k" "t" "i")).trace).length = 2 ∧
      ∀ logger, (run (script "k" "t" "i")).lines logger = (run (script "l" "u" "j")).lines logger := by
  intro waiting script plan run
  have alike : (script "k" "t" "i").Alike hiddenNested (script "l" "u" "j") := by
    have source : Value.InObjects (Secret hiddenNested)
        (.object [("secretAccessKey", .text "i"), ("region", .text "eu")])
        (.object [("secretAccessKey", .text "j"), ("region", .text "eu")]) :=
      .objects (.cons ⟨rfl, .inr (secret_text (.head _) _ _)⟩ (.cons ⟨rfl, .inl rfl⟩ .nil))
    have context : ContextsAlike hiddenNested
        (.object [("secretAccessKey", .text "k"), ("sessionToken", .text "t"),
          ("source", .object [("secretAccessKey", .text "i"), ("region", .text "eu")])])
        (.object [("secretAccessKey", .text "l"), ("sessionToken", .text "u"),
          ("source", .object [("secretAccessKey", .text "j"), ("region", .text "eu")])]) :=
      .objects (.cons ⟨rfl, .inr (.inl (secret_text (.head _) _ _))⟩
        (.cons ⟨rfl, .inr (.inl (secret_text (.tail _ (.head _)) _ _))⟩ (.cons ⟨rfl, .inr (.inr source)⟩ .nil)))
    refine ⟨.cons (.responses ?_) (.cons (.same _) .nil), rfl⟩
    exact .objects (.cons ⟨rfl, .inl rfl⟩ (.cons ⟨rfl, .inr ⟨rfl, context⟩⟩ .nil))
  exact ⟨alike, by decide +kernel, (credentials_hidden alike plan .unbounded 3).1⟩

/-- A session token in an object member of a context is logged: handlers that differ in it alone lead to
    different lines. -/
theorem nested_session_token_logged :
    let waiting (token : Text) : Answer := .respond (.object [("status", .text "IN_PROGRESS"),
      ("callbackContext", .object [("source", .object [("sessionToken", .text token)])])])
    let script (token : Text) : Script :=
      ⟨[waiting token, .respond (.object [("status", .text "SUCCESS")])], none⟩
    let plan : Plan :=
      ⟨⟨"http://localhost", "handler"⟩, ⟨.create, .object [], .object [], "token-1"⟩⟩
    let run (script : Script) := (Session.play script 2 (.begin script)
      (.start plan .unbounded (Session.begin script).signal)).2
    (script "s").Alike credentialNames (script "t") ∧
      (run (script "s")).lines ⟨.debug, []⟩ ≠ (run (script "t")).lines ⟨.debug, []⟩ := by
  intro waiting script plan run
  have alike : (script "s").Alike credentialNames (script "t") := by
    have source : Value.InObjects (Secret credentialNames) (.object [("sessionToken", .text "s")])
        (.object [("sessionToken", .text "t")]) :=
      .objects (.cons ⟨rfl, .inr (secret_text (.tail _ (.head _)) _ _)⟩ .nil)
    have context : ContextsAlike credentialNames
        (.object [("source", .object [("sessionToken", .text "s")])])
        (.object [("source", .object [("sessionToken", .text "t")])]) :=
      .objects (.cons ⟨rfl, .inr (.inr source)⟩ .nil)
    refine ⟨.cons (.responses ?_) (.cons (.same _) .nil), rfl⟩
    exact .objects (.cons ⟨rfl, .inl rfl⟩ (.cons ⟨rfl, .inr ⟨rfl, context⟩⟩ .nil))
  exact ⟨alike, by decide +kernel⟩

end Session

end Lifecycle
