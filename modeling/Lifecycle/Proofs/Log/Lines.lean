import Lifecycle.Log.Logger
import Lifecycle.Proofs.Event.Absence
import Lifecycle.Proofs.Log.Places
import Lifecycle.Proofs.Log.Rearranged

/- A line is JSON text.

   A logger without bindings writes an entry of JSON data as one JSON object: the number of the level,
   the members that it shows of the entry, and the message (`line_eq`). -/
namespace Lifecycle

namespace Json

/-! ## Text without an indent -/

/-- Without an indent there is nothing but commas between the parts. -/
theorem bracketed_flat (level : Nat) (opening closing : UInt16) (parts : List Text) :
    bracketed [] level opening closing parts =
      opening :: (Text.join [0x2C] parts ++ [closing]) := by
  simp [bracketed, newline, margin, Text.unit]

mutual

theorem render?_level (level : Nat) : ∀ v : Value, render? [] level v = render? [] 0 v
  | .array items => by
    rw [render?, render?, bracketed_flat, bracketed_flat, renderItems_level (level + 1) items,
      renderItems_level (0 + 1) items]
  | .object ms => by
    rw [render?, render?, bracketed_flat, bracketed_flat, renderMembers_level (level + 1) ms,
      renderMembers_level (0 + 1) ms]
  | .error _ ms => by
    rw [render?, render?, bracketed_flat, bracketed_flat, renderMembers_level (level + 1) ms,
      renderMembers_level (0 + 1) ms]
  | .null => rfl
  | .bool true => rfl
  | .bool false => rfl
  | .number _ => rfl
  | .exact _ => rfl
  | .text _ => rfl
  | .undefined => rfl
  | .function => rfl
  | .symbol => rfl
  | .bigint _ => rfl

theorem renderItems_level (level : Nat) : ∀ items : List Value,
    renderItems [] level items = renderItems [] 0 items
  | [] => rfl
  | v :: rest => by
    rw [renderItems, renderItems, render?_level level v, renderItems_level level rest]

theorem renderMembers_level (level : Nat) : ∀ ms : List (Text × Value),
    renderMembers [] level ms = renderMembers [] 0 ms
  | [] => rfl
  | (name, v) :: rest => by
    rw [renderMembers, renderMembers, render?_level level v, renderMembers_level level rest]

end

theorem join_cons (p : Text) (ps : List Text) :
    Text.join [0x2C] (p :: ps) = p ++ ps.flatMap fun q => 0x2C :: q := by
  induction ps generalizing p with
  | nil => simp [Text.join]
  | cons q ps ih =>
    have step : Text.join [0x2C] (p :: q :: ps) = p ++ [0x2C] ++ Text.join [0x2C] (q :: ps) := rfl
    rw [step, ih, List.flatMap_cons]
    simp

end Json

namespace Value

theorem expandMembers_eq (ms : Members) : expandMembers ms = ms.map fun m => (m.1, m.2.expand) := by
  induction ms with
  | nil => rfl
  | cons m ms ih => rw [expandMembers, ih, List.map_cons]

theorem hasBigintItem_eq (items : List Value) : hasBigintItem items = items.any hasBigint := by
  induction items with
  | nil => rfl
  | cons v items ih => rw [hasBigintItem, ih, List.any_cons]

theorem hasBigintMember_eq (ms : Members) : hasBigintMember ms = ms.any fun m => m.2.hasBigint := by
  induction ms with
  | nil => rfl
  | cons m ms ih => rw [hasBigintMember, ih, List.any_cons]

theorem hasBigintMember_eq_false {ms : Members} (h : ∀ m ∈ ms, m.2.hasBigint = false) :
    hasBigintMember ms = false := by
  rw [hasBigintMember_eq, List.any_eq_false]
  intro m hm
  simpa using h m hm

theorem hasBigint_of_isJson (v : Value) (h : v.isJson = true) : v.hasBigint = false := by
  induction v using entries_induction with
  | step v ih =>
    have parts := ((isJson_iff_entries v).1 h).2
    have below (m : Text × Value) (hm : m ∈ v.entries) : m.2.hasBigint = false := ih m hm (parts m hm)
    cases v with
    | array items =>
      rw [hasBigint, hasBigintItem_eq, List.any_eq_false]
      intro w hw
      obtain ⟨i, hi, rfl⟩ := List.getElem_of_mem hw
      simpa using below (Text.ofNat i, items[i]) (List.mem_mapIdx.2 ⟨i, hi, rfl⟩)
    | object ms =>
      have none_here : hasBigintMember ms = false := hasBigintMember_eq_false below
      rw [hasBigint, none_here, Bool.and_false]
    | error message ms =>
      have none_here : hasBigintMember ms = false := hasBigintMember_eq_false below
      rw [hasBigint, none_here, Bool.and_false]
    | bigint n => cases h
    | _ => rfl

end Value

namespace Redaction

theorem isJson_hide (ps : List RedactionPath) (v : Value) (h : v.isJson = true) :
    (hide ps v).isJson = true := by
  induction v using Value.entries_induction generalizing ps with
  | step v ih =>
    obtain ⟨plain, parts⟩ := (Value.isJson_iff_entries v).1 h
    have kind : (hide ps v).isPlain = v.isPlain := by
      rw [hide_eq]
      cases v <;> rfl
    rw [Value.isJson_iff_entries, kind]
    refine ⟨plain, ?_⟩
    rw [hide_eq, Value.entries_mapEntries]
    intro m hm
    obtain ⟨m', hm', rfl⟩ := List.mem_map.1 hm
    unfold mask
    split
    · rfl
    · exact ih m' hm' _ (parts m' hm')

end Redaction

namespace Logger

open Json

variable {ms : Members}

/-! ## The members of a line -/

def shown (ms : Members) : Members := Redaction.redact (Log.withError ms)

theorem isJson_shown (h : ∀ m ∈ ms, m.2.isJson = true) : ∀ m ∈ shown ms, m.2.isJson = true := by
  have error : ∀ m ∈ Log.withError ms, m.2.isJson = true := by
    intro m hm
    obtain ⟨m', hm', rfl⟩ := List.mem_map.1 hm
    split
    · exact Log.isJson_asError _ (h m' hm')
    · exact h m' hm'
  have hidden := Redaction.isJson_hide Redaction.paths _ (Value.isJson_object.2 error)
  exact Value.isJson_object.1 hidden

theorem valueText?_eq {v : Value} (h : v.isJson = true) : Log.valueText? v = v.plainJson? := by
  rw [Log.valueText?, Value.hasBigint_of_isJson v h]
  rfl

theorem memberText_eq (h : ∀ m ∈ ms, m.2.isJson = true) :
    memberText ms = (shown ms).flatMap fun m => part (quote m.1) m.2 := by
  have all : (ms.filter fun m => !m.2.isUndefined && !m.2.isFunction) = ms := by
    rw [List.filter_eq_self]
    intro m hm
    have json := h m hm
    cases hv : m.2 with
    | undefined => rw [hv] at json; cases json
    | function => rw [hv] at json; cases json
    | _ => rfl
  rw [memberText, all]
  rfl

theorem parts_eq (h : ∀ m ∈ ms, m.2.isJson = true) :
    (ms.flatMap fun m => part (quote m.1) m.2) =
      (renderMembers [] 0 (Value.expandMembers ms)).flatMap fun q => 0x2C :: q := by
  induction ms with
  | nil => rfl
  | cons m ms ih =>
    rw [List.forall_mem_cons] at h
    rw [List.flatMap_cons, ih h.2, part, valueText?_eq h.1, Value.plainJson?, Value.expandMembers,
      renderMembers]
    cases render? [] 0 m.2.expand with
    | none => rfl
    | some t =>
      rw [List.flatMap_cons]
      rfl

/-! ## The line -/

def messageMembers (e : LogEntry) : Members := ((messageOf e).map fun m => (("msg" : Text), m)).toList

theorem get?_isJson {v w : Value} {name : Text} (h : v.isJson = true) (hw : v.get? name = some w) :
    w.isJson = true := by
  have found : v.find? name = some w := by
    unfold Value.get? at hw
    split at hw
    · cases hw
    · exact hw
  exact Value.isJson_find? h found

theorem subject_of_plain (plain : Log.isRequest ms = false) : Log.subject ms = ms := by
  rw [Log.subject, plain]
  rfl

theorem isJson_messageMembers {e : LogEntry} (h : ∀ m ∈ e.members, m.2.isJson = true)
    (plain : Log.isRequest e.members = false) : ∀ m ∈ messageMembers e, m.2.isJson = true := by
  intro m hm
  obtain ⟨v, hv, rfl⟩ := Option.map_eq_some_iff.1 (Option.mem_toList.1 hm)
  rw [messageOf, subject_of_plain plain] at hv
  obtain own | ⟨-, held⟩ := Option.or_eq_some_iff.1 hv
  · obtain ⟨t, -, rfl⟩ := Option.map_eq_some_iff.1 own
    rfl
  · obtain ⟨error, he, hv⟩ := Option.bind_eq_some_iff.1 held
    exact get?_isJson (h _ (Member.mem_of_find? he)) hv

theorem isFunction_expand (v : Value) : v.expand.isFunction = v.isFunction := by
  cases v <;> rfl

theorem levelText (l : Level) : render? [] 0 (Value.number (.ofNat l.number)).expand =
    some (Text.ofNat l.number) := by
  cases l <;> decide +kernel

/-- **A line is the JSON text of one object**: the number of its level, what is shown of its members, and
    its message. -/
theorem line_eq (level : Level) (e : LogEntry) (h : ∀ m ∈ e.members, m.2.isJson = true)
    (plain : Log.isRequest e.members = false) :
    (Value.object (("level", .number (.ofNat e.level.number)) ::
      (shown e.members ++ shown (messageMembers e)))).plainJson? = some (line ⟨level, []⟩ e) := by
  have json := isJson_messageMembers h plain
  have all : ∀ m ∈ shown e.members ++ shown (messageMembers e), m.2.isJson = true := by
    intro m hm
    obtain hm | hm := List.mem_append.1 hm
    · exact isJson_shown h m hm
    · exact isJson_shown json m hm
  have silent : speaksForItself (Value.expandMembers (("level", .number (.ofNat e.level.number)) ::
      (shown e.members ++ shown (messageMembers e)))) = false := by
    apply Value.not_speaksForItself
    rw [Value.expandMembers_eq]
    intro m hm
    obtain ⟨m', hm', rfl⟩ := List.mem_map.1 hm
    rw [isFunction_expand]
    obtain rfl | hm' := List.mem_cons.1 hm'
    · rfl
    · exact Value.isFunction_of_isJson (all m' hm')
  have members : memberText (Log.subject e.members) ++ messageText (messageOf e) =
      (renderMembers [] 0 (Value.expandMembers (shown e.members ++ shown (messageMembers e)))).flatMap
        fun q => 0x2C :: q := by
    rw [← parts_eq all, List.flatMap_append, subject_of_plain plain, memberText_eq h, messageText]
    exact congrArg _ (memberText_eq json)
  rw [Value.plainJson?, Value.expand, render?, silent, Value.expandMembers, renderMembers_level,
    renderMembers, levelText, bracketed_flat]
  have opening : ("\x7b\"level\":" : Text) = 0x7B :: (quote "level" ++ colon []) := by decide
  have closing : ("\x7d" : Text) = [0x7D] := by decide
  have unbound : bindingText [] = [] := rfl
  simp only [join_cons, ← members, line, opening, closing, unbound, List.isEmpty_cons,
    Bool.false_eq_true, if_false, List.append_nil, List.append_assoc, List.cons_append]

end Logger

end Lifecycle
