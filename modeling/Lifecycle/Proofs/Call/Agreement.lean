import Lifecycle.Command.ValidateEvent
import Lifecycle.Proofs.Call.Fidelity
import Lifecycle.Proofs.Json.Path

/- The two readers of a response.

   A run takes the response out of a reply, and the command line checks one that is saved
   in a file. A text is accepted if it denotes a response that passes the check
   (`Accepted`), and a run that gets the text takes it in exactly if it is
   (`resumeCall_cases`). The command asks in addition that every part of the response be
   JSON data (`validateEvent_cases`). So the two come apart just where a text
   is inconsistent and has a number beyond the doubles. -/
namespace Lifecycle

/-! ## Blank texts -/

namespace Json

variable {t : Text} {u : UInt16}

theorem ne_of_isBlank {c : UInt16} (hu : Text.isBlank u = true) (hc : Text.isBlank c = false) :
    u ≠ c := by
  rintro rfl
  rw [hu] at hc
  cases hc

theorem literal_isBlank (hu : Text.isBlank u = true) (rest : Text) :
    Literal.read (u :: rest) = none := by
  have hdigit : Text.digit? u = none := by
    apply dif_neg
    intro h
    simp [Text.isBlank] at hu
    omega
  rw [Literal.read_unsigned (ne_of_isBlank hu rfl), Literal.readUnsigned, Literal.readWhole, hdigit]
  rfl

theorem readDocument_isBlank (h : ∀ u ∈ t, Text.isBlank u = true) (fuel : Nat) :
    readDocument fuel t = none := by
  cases fuel with
  | zero => rfl
  | succ fuel =>
    cases hskip : skipSpace t with
    | nil => simp only [readDocument, hskip]
    | cons u rest =>
      have hu : Text.isBlank u = true := by
        apply h
        apply (List.dropWhile_suffix isSpace).subset
        rw [show t.dropWhile isSpace = u :: rest from hskip]
        exact List.mem_cons_self
      have hne {c : UInt16} (hc : Text.isBlank c = false) : u ≠ c := ne_of_isBlank hu hc
      simp only [readDocument, hskip]
      rw [if_neg (hne (by decide)), if_neg (hne (by decide)), if_neg (hne (by decide)),
        show Text.after? (Text.ofString "null") (u :: rest) = none from after?_ne (hne (by decide)).symm _ _,
        show Text.after? (Text.ofString "true") (u :: rest) = none from after?_ne (hne (by decide)).symm _ _,
        show Text.after? (Text.ofString "false") (u :: rest) = none from
          after?_ne (hne (by decide)).symm _ _, literal_isBlank hu]
      rfl

theorem isBlank_of_trim (h : t.trim.isEmpty = true) : ∀ u ∈ t, Text.isBlank u = true := by
  have hdropped : ∀ u ∈ t.dropWhile Text.isBlank, Text.isBlank u = true := by
    rw [List.isEmpty_iff, Text.trim, List.reverse_eq_nil_iff, List.dropWhile_eq_nil_iff] at h
    intro u hu
    exact h u (List.mem_reverse.2 hu)
  intro u hu
  rw [← List.takeWhile_append_dropWhile (p := Text.isBlank) (l := t)] at hu
  obtain hu | hu := List.mem_append.1 hu
  · exact List.mem_takeWhile_imp hu
  · exact hdropped u hu

theorem document?_of_trim (h : t.trim.isEmpty = true) : document? t = none := by
  rw [document?, readDocument_isBlank (isBlank_of_trim h)]

end Json

/-! ## The run -/

/-- A text that denotes a response which passes the check, with the report on it. -/
def Accepted (t : Text) (report : Report) : Prop :=
  ∃ d, Json.document? t = some d ∧ Envelope.check d.toValue = .ok report

variable {t : Text} {r r' : Run} {report : Report}

theorem accepted_iff {d : Document} (hd : Json.document? t = some d) :
    Accepted t report ↔ Envelope.check d.toValue = .ok report := by
  constructor
  · rintro ⟨d', hd', hc⟩
    obtain rfl := Option.some.inj (hd.symm.trans hd')
    exact hc
  · intro hc
    exact ⟨d, hd, hc⟩

theorem Accepted.unique {report' : Report} (h : Accepted t report) (h' : Accepted t report') :
    report = report' := by
  obtain ⟨d, hd, hc⟩ := h
  exact Except.ok.inj (hc.symm.trans ((accepted_iff hd).1 h'))

/-- The text of an object is taken for a response, and any other document is refused. -/
theorem Reply.responseOf_eq {d : Document} (hd : Json.document? t = some d) :
    responseOf t = if d.toValue.isObject then .ok d.toValue
      else .error (.protocol "Handler payload is not a JSON object" (some t)) := by
  have htrim : ¬ t.trim.isEmpty = true := by
    intro h
    rw [Json.document?_of_trim h] at hd
    cases hd
  rw [responseOf, if_neg htrim, Json.parse?, hd, Option.map_some]

/-- A run after it has taken in an accepted response. -/
structure Took (report : Report) (r r' : Run) : Prop where
  lastEvent : r'.state.lastEvent = some report.event
  warnings : r'.state.warnings = r.state.warnings ++ report.warnings
  unerrored : ∀ error, r'.state.stage ≠ .errored error
  uncrashed : ∀ fault, r'.demand ≠ .crashed fault

theorem Run.took_proceed (r : Run) (report : Report) : Took report r ((r.taking report).proceed none) := by
  obtain ⟨event, warnings⟩ := report
  cases event with
  | success e =>
    rw [Run.proceed_terminal rfl]
    exact ⟨rfl, rfl, nofun, nofun⟩
  | failed e =>
    rw [Run.proceed_terminal rfl]
    exact ⟨rfl, rfl, nofun, nofun⟩
  | inProgress e =>
    have hstage : (r.taking ⟨.inProgress e, warnings⟩).state.stage = .continuing e.delaySeconds := rfl
    have hready : (r.taking ⟨.inProgress e, warnings⟩).state.IsReady := .inr ⟨_, hstage⟩
    cases ha : (r.taking ⟨.inProgress e, warnings⟩).state.budget.allows
        ((r.taking ⟨.inProgress e, warnings⟩).state.invocationCount.add .one) with
    | false =>
      rw [Run.proceed_onward hstage (.inr ha), Run.callNext_suppressed hready ha rfl]
      exact ⟨rfl, rfl, nofun, nofun⟩
    | true =>
      cases hd : Double.zero.lt e.delaySeconds with
      | false =>
        rw [Run.proceed_onward hstage (.inl hd), Run.callNext_allowed hready ha]
        exact ⟨rfl, rfl, nofun, nofun⟩
      | true =>
        rw [Run.proceed_pausing hstage hd ha]
        exact ⟨rfl, rfl, fun error h => (by cases hstage.symm.trans h), nofun⟩

/-- A run that gets a reply takes it in if the text of the reply is accepted, and ends in error
    otherwise. -/
theorem Run.resumeCall_cases (r : Run) {reply : Reply} (hf : reply.functionError.getD [] = []) :
    (∃ report, Accepted reply.text report ∧
      Took report r (r.resumeCall (.ofExcept reply.response) none)) ∨
    (∀ report, ¬ Accepted reply.text report) ∧
      ∃ error, (r.resumeCall (.ofExcept reply.response) none).state.stage = .errored error := by
  have hresponse := Reply.response_eq hf
  cases hr : Reply.responseOf reply.text with
  | error error =>
    refine .inr ⟨?_, _, by rw [hresponse, hr]; rfl⟩
    rintro report ⟨d, hd, hc⟩
    rw [Reply.responseOf_eq hd, if_pos (Envelope.check_cases hc).1] at hr
    cases hr
  | ok response =>
    obtain ⟨d, hd, rfl⟩ := Reply.document?_of_response (hresponse.trans hr)
    rw [hresponse, hr, CallResult.ofExcept]
    cases hc : Envelope.check d.toValue with
    | ok report =>
      rw [Run.resumeCall_accepted hc]
      exact .inl ⟨report, ⟨d, hd, hc⟩, r.took_proceed report⟩
    | error error =>
      rw [Run.resumeCall_rejected hc]
      refine .inr ⟨?_, _, rfl⟩
      intro report accepted
      rw [accepted_iff hd, hc] at accepted
      cases accepted

/-! ## The command -/

/-- No number of a text becomes infinite: the text is consistent, or it has no number beyond the
    doubles. -/
def NumbersStand (t : Text) : Prop :=
  ∀ d, Json.document? t = some d → d.isConsistent = true ∨
    d.AllNumbers fun l => l.toDouble.isFinite = true

theorem numbersStand_iff {d : Document} (hd : Json.document? t = some d) :
    NumbersStand t ↔ d.toValue.isJson = true := by
  rw [Document.toValue_isJson_iff, NumbersStand, hd]
  constructor
  · intro h
    exact h d rfl
  · rintro h d' ⟨⟩
    exact h

/-- What the command says of a text: it describes one that is accepted and whose numbers stand, and
    complains of any other. -/
theorem validateEvent_cases (files : Files) (path t : Text)
    (saved : Member.find? path files = some (.content t)) :
    ∃ file, LoadedFile.load files path = .ok file ∧
      ((∃ report, Accepted t report ∧ NumbersStand t ∧
        Command.validateEvent path file = Command.describeEvent path report) ∨
      (∀ report, Accepted t report → ¬ NumbersStand t) ∧
        (Command.validateEvent path file).exitStatus = .misuse) := by
  refine ⟨_, by rw [LoadedFile.load, saved]; rfl, ?_⟩
  cases hd : Json.document? t with
  | none =>
    refine .inr ⟨?_, by rw [Json.parse?, hd]; rfl⟩
    rintro report ⟨d, hd', -⟩
    rw [hd] at hd'
    cases hd'
  | some d =>
    have hstand := numbersStand_iff hd
    rw [Json.parse?, hd, Option.map_some]
    cases hj : d.toValue.isJson with
    | false =>
      refine .inr ⟨fun report _ h => ?_, ?_⟩
      · rw [hstand, hj] at h
        cases h
      · rw [Command.validateEvent, Command.validateBody, hj]
        rfl
    | true =>
      rw [Command.validateEvent, Command.validateBody, hj]
      cases hc : Envelope.check d.toValue with
      | ok report => exact .inl ⟨report, ⟨d, hd, hc⟩, hstand.2 hj, rfl⟩
      | error error =>
        refine .inr ⟨?_, rfl⟩
        intro report accepted
        rw [accepted_iff hd, hc] at accepted
        cases accepted

/-! ## Both -/

namespace Playback

theorem serve_reply {e : Endpoint} {p : Playback} {reply : Reply} (due : r.demand = .call)
    (unaborted : p.clock.signal = none) (replied : answer e p.sent.length = .reply reply) :
    ∃ p', serve e p r = some (p', r.resumeCall (.ofExcept reply.response) none) := by
  refine ⟨(call e p r.target r.state.request).1, ?_⟩
  have hresult : (call e p r.target r.state.request).2 = .ofExcept reply.response := by
    simp only [call, Exchange.begin, unaborted, replied, firstEvent]
    rfl
  have hsignal : (call e p r.target r.state.request).1.clock.signal = none := by
    simp only [call, Exchange.begin, unaborted, replied, firstEvent]
    exact unaborted
  simp only [serve, due]
  rw [hresult, hsignal]

/-- **The command accepts what a run accepts, as long as the numbers stand.** Let a call be answered
    with a text, without an error of the function and before any abort, and let a file hold the
    same text. The command that checks the file succeeds exactly if the answer does not end the run
    in error and no number of the text becomes infinite; then the run has taken in the very event
    and the very warnings that the command describes. -/
theorem readers_agree (e : Endpoint) (p : Playback) (r : Run) {reply : Reply} (files : Files)
    (path : Text) (due : r.demand = .call) (unaborted : p.clock.signal = none)
    (replied : answer e p.sent.length = .reply reply) (raised : reply.functionError.getD [] = [])
    (saved : Member.find? path files = some (.content reply.text)) :
    ∃ p' r' file, serve e p r = some (p', r') ∧ LoadedFile.load files path = .ok file ∧
      ((Command.validateEvent path file).exitStatus = .success ↔
        (∀ error, r'.state.stage ≠ .errored error) ∧ NumbersStand reply.text) ∧
      ((Command.validateEvent path file).exitStatus = .success → ∃ report,
        Command.validateEvent path file = Command.describeEvent path report ∧ Took report r r') := by
  obtain ⟨p', hserve⟩ := serve_reply due unaborted replied
  obtain ⟨file, hfile, hcommand⟩ := validateEvent_cases files path reply.text saved
  refine ⟨p', _, file, hserve, hfile, ?_⟩
  obtain ⟨report, accepted, took⟩ | ⟨refused, error, herror⟩ := r.resumeCall_cases raised
  · obtain ⟨report', accepted', stand, hdescribed⟩ | ⟨lost, hmisuse⟩ := hcommand
    · obtain rfl := accepted.unique accepted'
      rw [hdescribed]
      exact ⟨iff_of_true rfl ⟨took.unerrored, stand⟩, fun _ => ⟨report, rfl, took⟩⟩
    · rw [hmisuse]
      exact ⟨iff_of_false nofun fun h => lost report accepted h.2, nofun⟩
  · obtain ⟨report, accepted, -⟩ | ⟨-, hmisuse⟩ := hcommand
    · exact absurd accepted (refused report)
    · rw [hmisuse]
      exact ⟨iff_of_false nofun fun h => h.1 error herror, nofun⟩

/-- Both readers take a text that repeats a member with the value it had and has a number in its
    context that no double holds. -/
theorem large_number_read_alike :
    let reply : Reply := ⟨none, some (Utf8.encode
      "\x7b\"status\":\"IN_PROGRESS\",\"callbackContext\":\x7b\"n\":1e400\x7d,\"a\":1,\"a\":1\x7d")⟩
    let r : Run := .start bare .unbounded none
    r.demand = .call ∧ (Clock.start none none).signal = none ∧
      answer (once reply) 0 = .reply reply ∧ reply.functionError.getD [] = [] ∧
    ∃ p' r' file report, serve (once reply) ⟨.start none none, []⟩ r = some (p', r') ∧
      LoadedFile.load [("e.json", .content reply.text)] "e.json" = .ok file ∧
      Command.validateEvent "e.json" file = Command.describeEvent "e.json" report ∧
      Took report r r' := by
  intro reply r
  refine ⟨rfl, rfl, rfl, rfl, ?_⟩
  obtain ⟨p', r', file, hserve, hfile, -, described⟩ :=
    readers_agree (once reply) ⟨.start none none, []⟩ r [("e.json", .content reply.text)] "e.json"
      rfl rfl rfl rfl (if_pos rfl)
  have hstatus : (LoadedFile.load [("e.json", .content reply.text)] "e.json").toOption.map
      (fun file => (Command.validateEvent "e.json" file).exitStatus) = some .success := by
    decide +kernel
  rw [hfile] at hstatus
  obtain ⟨report, hreport, took⟩ := described (Option.some.inj hstatus)
  exact ⟨p', r', file, report, hserve, hfile, hreport, took⟩

/-- The readers come apart at a text that is inconsistent and has a number beyond the
    doubles: the run succeeds, and the command takes the text for no JSON document. -/
theorem repeated_member_read_apart :
    let reply : Reply := ⟨none, some (Utf8.encode
      "\x7b\"status\":\"SUCCESS\",\"a\":1,\"a\":2,\"m\":1e400\x7d")⟩
    ∃ p' r' file, serve (once reply) ⟨.start none none, []⟩ (.start bare .unbounded none) =
        some (p', r') ∧ r'.state.stage.name = "done_success" ∧
      LoadedFile.load [("e.json", .content reply.text)] "e.json" = .ok file ∧
      Command.validateEvent "e.json" file = .misuse (.ofMessage "Not a JSON document: e.json") := by
  intro reply
  have hstage : (serve (once reply) ⟨.start none none, []⟩ (.start bare .unbounded none)).map
      (fun served => served.2.state.stage.name) = some "done_success" := by decide +kernel
  have hcommand : (LoadedFile.load [("e.json", .content reply.text)] "e.json").toOption.map
      (Command.validateEvent "e.json") = some (.misuse (.ofMessage "Not a JSON document: e.json")) := by
    decide +kernel
  obtain ⟨⟨p', r'⟩, hserve, hname⟩ := Option.map_eq_some_iff.1 hstage
  obtain ⟨file, hfile, -⟩ := validateEvent_cases [("e.json", .content reply.text)] "e.json" reply.text
    (if_pos rfl)
  rw [hfile] at hcommand
  exact ⟨p', r', file, hserve, hname, hfile, Option.some.inj hcommand⟩

end Playback
end Lifecycle
