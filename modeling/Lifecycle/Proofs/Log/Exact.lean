import Lifecycle.Proofs.Log.Lines

/- Redaction hides what the paths select, and nothing else.

   Two entries that differ in selected parts alone are written alike: hiding removes the difference, and
   neither the rearrangement of an error nor the message that is taken from it looks at a selected part
   (`Alike.shown_eq`, `Alike.messageMembers_eq`). What is not selected stands in the line as it is in the
   entry. The record of an error is the exception: what its line shows is what it is rearranged to. -/
namespace Lifecycle

namespace Redaction

variable {place inner : List Text} {name : Text} {v v' : Value} {ms ms' : Members}

/-! ## Where paths lead -/

theorem not_selected_entry : ¬Selected [] := by decide

/-- An error is shown, though not with all its members. -/
theorem not_selected_error : ¬Selected [Log.errorName] := by decide

/-- Below the second name only one path goes on, and it begins with the context. -/
theorem not_selected_deep {first second third : Text} (h : first ≠ "callbackContext") :
    ¬Selected (first :: second :: third :: inner) := by
  intro selected
  obtain ⟨path, hpath, along⟩ := selected
  have short : ∀ path ∈ paths, path.length ≤ 2 ∨ path.head? = some (.name "callbackContext") := by
    decide
  obtain low | named := short path hpath
  · rw [along.length_eq] at low
    simp at low
  · cases along with
    | cons leads =>
      cases named
      exact h (beq_iff_eq.1 leads).symm

theorem Alike.eq_or_selected (h : Alike place v v')
    (clear : ∀ name inner, ¬Selected (place ++ name :: inner)) : v = v' ∨ Selected place := by
  by_cases selected : Selected place
  · exact .inr selected
  · left
    apply h.eq_of_clear
    intro inner
    cases inner with
    | nil => rwa [List.append_nil]
    | cons name inner => exact clear name inner

theorem find?_alike
    (h : List.Forall₂ (fun m m' => m.1 = m'.1 ∧ Alike (place ++ [m.1]) m.2 m'.2) ms ms') (name : Text) :
    (Member.find? name ms = none ∧ Member.find? name ms' = none) ∨
      ∃ w w', Member.find? name ms = some w ∧ Member.find? name ms' = some w' ∧
        Alike (place ++ [name]) w w' := by
  induction h with
  | nil => exact .inl ⟨rfl, rfl⟩
  | @cons m m' ms ms' hm _ ih =>
    obtain ⟨same, alike⟩ := hm
    rw [Member.find?, Member.find?, ← same]
    split
    · next named => exact .inr ⟨_, _, rfl, rfl, named ▸ alike⟩
    · exact ih

theorem Alike.members (h : Alike place (.object ms) (.object ms')) (visible : ¬Selected place) :
    List.Forall₂ (fun m m' => m.1 = m'.1 ∧ Alike (place ++ [m.1]) m.2 m'.2) ms ms' :=
  h.entries visible

/-- Under a name to which and below which no path leads, there is the same on both sides. -/
theorem Alike.get?_eq (h : Alike place v v') (visible : ¬Selected place)
    (clear : ∀ inner, ¬Selected (place ++ name :: inner)) : v.get? name = v'.get? name := by
  have parts := h.entries visible
  have frame := h.frame_eq visible
  have found {ms ms' : Members}
      (h : List.Forall₂ (fun m m' => m.1 = m'.1 ∧ Alike (place ++ [m.1]) m.2 m'.2) ms ms') :
      Member.find? name ms = Member.find? name ms' := by
    obtain ⟨missing, missing'⟩ | ⟨w, w', hw, hw', alike⟩ := find?_alike h name
    · rw [missing, missing']
    · have equal : w = w' := by
        apply alike.eq_of_clear
        intro inner
        simpa using clear inner
      rw [hw, hw', equal]
  have same : v.find? name = v'.find? name := by
    cases v with
    | object ms =>
      cases v' with
      | object ms' => exact found parts
      | _ => cases frame
    | error message ms =>
      cases v' with
      | error message' ms' =>
        obtain rfl : message = message' := (Value.error.inj frame).1
        have own : Member.find? name ms = Member.find? name ms' := found parts
        simp only [Value.find?, Value.members, own]
        cases Member.find? name ms' <;> rfl
      | _ => cases frame
    | array items =>
      cases v' with
      | array items' => rfl
      | _ => cases frame
    | _ =>
      cases v' <;> cases frame
      rfl
  rw [Value.get?, Value.get?, same]

/-! ## Errors -/

theorem Alike.agree (h : Alike [Log.errorName] (.object ms) (.object ms')) :
    Log.Agree (fun name => Selected [Log.errorName, name]) ms ms' := by
  have parts := h.members not_selected_error
  refine parts.imp ?_
  intro m m' related
  refine ⟨related.1, related.2.eq_or_selected ?_⟩
  intro name inner
  exact not_selected_deep (by decide)

theorem Alike.mask_asError (h : Alike [Log.errorName] v v') :
    mask (under [Log.errorName]) (Log.asError v) = mask (under [Log.errorName]) (Log.asError v') := by
  have frame := h.frame_eq not_selected_error
  by_cases object : ∃ ms, v = .object ms
  · obtain ⟨ms, rfl⟩ := object
    cases v' with
    | object ms' =>
      obtain ⟨ns, ns', hns, hns', agree⟩ := Log.asError_agree h.agree (by decide)
      rw [hns, hns', mask_of_not_selected not_selected_error, mask_of_not_selected not_selected_error]
      have inside : Value.InObjects (fun name _ _ => Selected [Log.errorName, name])
          (.object ns) (.object ns') := .objects agree
      apply hide_inObjects inside
      intro name w w' selected
      exact .inl ((isSelected_under [Log.errorName, name]).2 selected)
    | _ => cases frame
  · have other : ∀ ms, v ≠ .object ms := fun ms hv => object ⟨ms, hv⟩
    have other' : ∀ ms', v' ≠ .object ms' := by
      intro ms' hv'
      rw [hv'] at frame
      cases v with
      | object ms => exact other ms rfl
      | _ => cases frame
    rw [Log.asError_of_not_object other, Log.asError_of_not_object other', h.mask_eq]

end Redaction

namespace Logger

open Redaction

variable {ms ms' : Members}

/-! ## Entries that are alike -/

theorem shown_eq_map (ms : Members) : shown ms = ms.map fun m =>
    (m.1, mask (below m.1 paths) (if m.1 = Log.errorName then Log.asError m.2 else m.2)) := by
  rw [shown, redact, hideMembers_eq, Log.withError, List.map_map]
  apply List.map_congr_left
  intro m _
  by_cases named : m.1 = Log.errorName <;> simp [named]

theorem shown_alike (h : Alike [] (.object ms) (.object ms')) : shown ms = shown ms' := by
  have parts := h.members not_selected_entry
  rw [shown_eq_map, shown_eq_map]
  refine List.forall₂_eq_eq_eq ▸ List.rel_map ?_ parts
  intro m m' related
  obtain ⟨name, v⟩ := m
  obtain ⟨name', v'⟩ := m'
  obtain ⟨rfl, alike⟩ := related
  refine Prod.ext rfl ?_
  change mask (under [name]) _ = mask (under [name]) _
  by_cases named : name = Log.errorName
  · subst named
    exact Alike.mask_asError alike
  · simp only [named, if_false]
    exact alike.mask_eq

theorem countsAsNothing_frame (v : Value) : Log.countsAsNothing v = Log.countsAsNothing v.frame := by
  cases v <;> rfl

theorem isRequest_alike (h : Alike [] (.object ms) (.object ms')) :
    Log.isRequest ms = Log.isRequest ms' := by
  have parts := h.members not_selected_entry
  have said (name : Text) (visible : ¬Selected [name]) :
      (Log.said? name ms).isSome = (Log.said? name ms').isSome := by
    rw [Log.said?, Log.said?]
    obtain ⟨missing, missing'⟩ | ⟨w, w', hw, hw', alike⟩ := find?_alike parts name
    · rw [missing, missing']
    · have frame := alike.frame_eq visible
      have same : Log.countsAsNothing w = Log.countsAsNothing w' := by
        rw [countsAsNothing_frame, frame, ← countsAsNothing_frame]
      rw [hw, hw', Option.filter_some, Option.filter_some, same]
      split
      · rfl
      · rfl
  rw [Log.isRequest, Log.isRequest, said "method" (by decide), said "headers" (by decide),
    said "socket" (by decide)]

theorem messageMembers_alike {e : LogEntry} (h : Alike [] (.object ms) (.object e.members))
    (plain : Log.isRequest e.members = false) :
    messageMembers { e with members := ms } = messageMembers e := by
  have parts := h.members not_selected_entry
  have plain' : Log.isRequest ms = false := (isRequest_alike h).trans plain
  rw [messageMembers, messageMembers, messageOf, messageOf, subject_of_plain plain,
    subject_of_plain plain']
  obtain ⟨missing, missing'⟩ | ⟨w, w', hw, hw', alike⟩ := find?_alike parts Log.errorName
  · rw [missing, missing']
  · have same : w.get? "message" = w'.get? "message" := by
      apply alike.get?_eq not_selected_error
      intro inner
      cases inner with
      | nil => decide
      | cons third inner => exact not_selected_deep (by decide)
    rw [hw, hw', Option.bind_some, Option.bind_some, same]

/-! ## The line of an entry -/

theorem mem_withError {m : Text × Value} (hm : m ∈ ms)
    (other : m.1 = Log.errorName → Log.isErrorLike m.2 = false) : m ∈ Log.withError ms := by
  apply List.mem_map.2
  refine ⟨m, hm, ?_⟩
  split
  · next named =>
    have same : Log.asError m.2 = m.2 := by
      cases hv : m.2 with
      | object ms =>
        have unlike := other named
        rw [hv] at unlike
        rw [Log.asError, unlike]
        rfl
      | _ => rfl
    rw [same]
  · rfl

/-- **Redaction hides what the paths select, and nothing else**, at any level of the root logger, for an
    entry of JSON data that is no request. Its line does not depend on the selected parts. The line is the
    JSON text of the level, the members that are shown and the message. A part of the entry that is neither
    selected nor part of what is selected is shown in its place, with its own value unless a path leads
    further, and what is selected is replaced by the fixed text. Of all members only an error's record is
    rearranged before. -/
theorem redaction_exact (level : Level) (e : LogEntry) (data : (Value.object e.members).isJson = true)
    (plain : Log.isRequest e.members = false) :
    (∀ ms, (Value.object ms).isJson = true → Alike [] (.object ms) (.object e.members) →
        write ⟨level, []⟩ { e with members := ms } = write ⟨level, []⟩ e) ∧
      (Value.object (("level", .number (.ofNat e.level.number)) ::
        (shown e.members ++ shown (messageMembers e)))).plainJson? = some (line ⟨level, []⟩ e) ∧
      (∀ place u, (place, u) ∈ (Value.object (Log.withError e.members)).nodes →
        (∀ sooner, sooner <+: place → ¬Selected sooner) →
        ∃ w, (place, w) ∈ (Value.object (shown e.members)).nodes ∧ w.frame = u.frame ∧
          ((∀ name inner, ¬Selected (place ++ name :: inner)) → w = u)) ∧
      (∀ place name u, (place ++ [name], u) ∈ (Value.object (Log.withError e.members)).nodes →
        (∀ sooner, sooner <+: place → ¬Selected sooner) → Selected (place ++ [name]) →
        (place ++ [name], .text censor) ∈ (Value.object (shown e.members)).nodes) ∧
      (∀ m ∈ e.members, (m.1 = Log.errorName → Log.isErrorLike m.2 = false) →
        m ∈ Log.withError e.members) ∧
      ∀ token, (("bearerToken" : Text), Value.text token) ∈ e.members →
        (("bearerToken" : Text), Value.text token) ∈ shown e.members := by
  have json := Value.isJson_object.1 data
  refine ⟨?_, line_eq level e json plain, ?_, ?_, fun m hm => mem_withError hm, ?_⟩
  · intro ms data' alike
    have plain' : Log.isRequest ms = false := (isRequest_alike alike).trans plain
    have text := line_eq level { e with members := ms } (Value.isJson_object.1 data') plain'
    have text' := line_eq level e json plain
    rw [messageMembers_alike alike plain, shown_alike alike] at text
    have same : line ⟨level, []⟩ { e with members := ms } = line ⟨level, []⟩ e :=
      Option.some.inj (text.symm.trans text')
    rw [write, write, same]
  · intro place u hu visible
    have shows := nodes_hide [] place _ hu fun name sooner h => visible _ h
    refine ⟨_, shows, frame_hide _ _, ?_⟩
    exact hide_of_clear place u
  · intro place name u hu visible selected
    exact nodes_hide_selected hu selected fun name sooner h => visible _ h
  · intro token ht
    rw [shown_eq_map]
    apply List.mem_map.2
    exact ⟨_, ht, rfl⟩

/-- Two entries with one bearer token and two passwords, at the top and in an error: they have one line, and
    the token is in it. -/
theorem password_hidden_token_shown :
    let members (password secret : Text) : Members := [("bearerToken", .text "token-1"),
      ("password", .text password), ("err", .object [("message", .text "boom"), ("secret", .text secret)])]
    let write (ms : Members) : List Text := write ⟨.info, []⟩ ⟨.error, ms, none⟩
    (∀ password secret, write (members password secret) = write (members "p" "s")) ∧
      (("bearerToken" : Text), Value.text "token-1") ∈ shown (members "p" "s") := by
  intro members write
  obtain ⟨hidden, -, -, -, -, token⟩ :=
    redaction_exact .info ⟨.error, members "p" "s", none⟩ (by decide +kernel) (by decide +kernel)
  refine ⟨?_, token "token-1" (by simp [members])⟩
  intro password secret
  have data : (Value.object (members password secret)).isJson = true := rfl
  have error : Alike ["err"] (.object [("message", .text "boom"), ("secret", .text secret)])
      (.object [("message", .text "boom"), ("secret", .text "s")]) := by
    refine .parts rfl ?_
    intro i hi _
    match i, hi with
    | 0, _ => exact .same _ _
    | 1, _ => exact .selected (show Selected ["err", "secret"] by decide) _ _
  have alike : Alike [] (.object (members password secret)) (.object (members "p" "s")) := by
    refine .parts rfl ?_
    intro i hi _
    match i, hi with
    | 0, _ => exact .same _ _
    | 1, _ => exact .selected (show Selected ["password"] by decide) _ _
    | 2, _ => exact error
  exact hidden _ data alike

/-- Where more or less is shown than the paths say of the entry itself: an error's record has another sort
    than its own, the items of a list are entered, and of a request the headers are no longer where the
    path leads. -/
theorem shown_otherwise :
    let write (ms : Members) : List Text := write ⟨.info, []⟩ ⟨.info, ms, some "m"⟩
    let line (shown : Text) : Text := "\x7b\"level\":30," ++ shown ++ ",\"msg\":\"m\"\x7d"
    let error : Members := [("err", .object [("message", .text "boom"), ("type", .text "Lambda")])]
    let list : Members := [("callbackContext", .array [.object [("secretAccessKey", .text "k")]])]
    let request (key : Text) : Members := [("method", .text "GET"),
      ("headers", .object [("authorization", .text key)]), ("socket", .bool true)]
    (¬Selected ["err", "type"] ∧ write error =
      [line "\"err\":\x7b\"type\":\"Object\",\"message\":\"boom\",\"stack\":\"\"\x7d"]) ∧
      write list = [line "\"callbackContext\":[\x7b\"secretAccessKey\":\"[REDACTED]\"\x7d]"] ∧
      Selected ["headers", "authorization"] ∧ write (request "k") ≠ write (request "l") := by
  decide +kernel

end Logger

end Lifecycle
