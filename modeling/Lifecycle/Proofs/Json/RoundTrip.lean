import Lifecycle.Proofs.Json.Lexeme
import Lifecycle.Proofs.Number.Layout

/- What is printed is read again.

   `written` is the document that a value is printed as: parts without a JSON text are
   left out or null, and a double is the literal it is written as. Under any indent of
   blanks, the reader gives back this document for the printed text (`document?_print`).
   The induction is on the value. It is carried by the length of the text, since every
   part that is read costs at most two of the fuel for each of its units. -/
namespace Lifecycle

namespace Value

/-! ## The printed document -/

def isPrinted : Value → Bool
  | .object ms => !Json.speaksForItself ms
  | .error _ ms => !Json.speaksForItself ms
  | .undefined => false
  | .function => false
  | .symbol => false
  | _ => true

mutual

/-- The document that a value is printed as. -/
def written : Value → Document
  | .null => .null
  | .bool b => .bool b
  | .number x => if x.isFinite then .number x.literal else .null
  | .exact l => .number l
  | .text s => .text s
  | .array items => .array (writtenItems items)
  | .object ms => if Json.speaksForItself ms then .null else .object (writtenMembers ms)
  | .error _ ms => if Json.speaksForItself ms then .null else .object (writtenMembers ms)
  | .undefined => .null
  | .function => .null
  | .symbol => .null
  | .bigint n => .number ⟨n < 0, n.natAbs, [], none⟩

def writtenItems : List Value → List Document
  | [] => []
  | v :: rest => v.written :: writtenItems rest

def writtenMembers : List (Text × Value) → List (Text × Document)
  | [] => []
  | (name, v) :: rest =>
    if v.isPrinted then (name, v.written) :: writtenMembers rest else writtenMembers rest

end

end Value

namespace Json

/-! ## Blanks -/

def Blank (t : Text) : Prop := ∀ u ∈ t, isSpace u = true

variable {indent sp tail t rest : Text} {u : UInt16} {level fuel : Nat}

theorem skipSpace_blank (h : Blank sp) (t : Text) : skipSpace (sp ++ t) = skipSpace t := by
  induction sp with
  | nil => rfl
  | cons u sp ih =>
    have hu : isSpace u = true := h u List.mem_cons_self
    rw [List.cons_append, skipSpace, List.dropWhile_cons_of_pos hu]
    exact ih fun v hv => h v (List.mem_cons_of_mem u hv)

theorem skipSpace_cons (h : isSpace u = false) (t : Text) : skipSpace (u :: t) = u :: t := by
  simp [skipSpace, h]

theorem blank_newline (indent : Text) : Blank (newline indent) := by
  unfold newline
  split
  · exact fun u hu => by cases hu
  · intro u hu
    obtain rfl : u = 0x0A := by simpa using hu
    rfl

theorem blank_append (h : Blank sp) (h' : Blank tail) : Blank (sp ++ tail) := by
  intro u hu
  rcases List.mem_append.1 hu with hu | hu
  · exact h u hu
  · exact h' u hu

theorem blank_margin (h : Blank indent) (level : Nat) : Blank (margin indent level) := by
  intro u hu
  obtain ⟨t, ht, hu⟩ := List.mem_flatten.1 hu
  rw [(List.mem_replicate.1 ht).2] at hu
  exact h u hu

theorem endsNumber_blank (h : Blank sp) (hu : Text.EndsNumber [u]) : Text.EndsNumber (sp ++ u :: rest) := by
  cases sp with
  | nil => exact hu
  | cons v sp =>
    have hv : isSpace v = true := h v List.mem_cons_self
    simp only [isSpace, Bool.or_eq_true, beq_iff_eq] at hv
    intro w hw
    obtain rfl : v = w := by simpa using hw
    obtain ((rfl | rfl) | rfl) | rfl := hv <;> decide

theorem readDocument_blank (h : Blank sp) (t : Text) :
    readDocument fuel (sp ++ t) = readDocument fuel t := by
  cases fuel with
  | zero => rfl
  | succ fuel => simp only [readDocument, skipSpace_blank h]

theorem readItems_blank (h : Blank sp) (t : Text) : readItems fuel (sp ++ t) = readItems fuel t := by
  cases fuel with
  | zero => rfl
  | succ fuel => simp only [readItems, readDocument_blank h]

theorem readMembers_blank (h : Blank sp) (t : Text) :
    readMembers fuel (sp ++ t) = readMembers fuel t := by
  cases fuel with
  | zero => rfl
  | succ fuel => simp only [readMembers, skipSpace_blank h]

/-! ## Scalars -/

theorem readDocument_quote (s rest : Text) :
    readDocument (fuel + 1) (quote s ++ rest) = some (.text s, rest) := by
  rw [quote, List.cons_append, List.append_assoc, readDocument]
  simp only [skipSpace_cons (show isSpace 0x22 = false from rfl)]
  rw [if_neg (by decide), if_neg (by decide), if_pos (by rfl)]
  simp [readText_quoteBody]

theorem literal_head (l : Literal) : ∃ u t, l.text = u :: t ∧ (u = 0x2D ∨ ∃ d, u = Text.ofDigit d) := by
  obtain ⟨d, ds, hds⟩ := List.exists_cons_of_ne_nil (Decimal.digitsOf_ne_nil l.whole)
  rw [Literal.text_eq, hds]
  cases l.negative with
  | true => exact ⟨_, _, rfl, .inl rfl⟩
  | false => exact ⟨_, _, rfl, .inr ⟨d, rfl⟩⟩

theorem ofInt_eq_literal (n : Int) :
    Text.ofInt n = (⟨n < 0, n.natAbs, [], none⟩ : Literal).text := by
  rw [Text.ofInt, Literal.text]
  by_cases h : n < 0 <;> simp [h]

/-- A number begins with no unit that another document begins with. -/
theorem literal_head_ne (h : u = 0x2D ∨ ∃ d, u = Text.ofDigit d) : isSpace u = false ∧
    u ≠ Text.unit '\x7b' ∧ u ≠ Text.unit '[' ∧ u ≠ Text.unit '"' ∧ u ≠ 0x6E ∧ u ≠ 0x74 ∧ u ≠ 0x66 ∧
    u ≠ 0x5D ∧ u ≠ 0xFEFF := by
  obtain rfl | ⟨d, rfl⟩ := h
  · decide
  · revert d
    decide

theorem after?_ne {b : UInt16} (h : b ≠ u) (bs t : Text) : Text.after? (b :: bs) (u :: t) = none :=
  if_neg h

theorem readDocument_literal (l : Literal) (h : rest.EndsNumber) :
    readDocument (fuel + 1) (l.text ++ rest) = some (.number l, rest) := by
  have hread := Literal.read_append l h
  obtain ⟨u, t, ht, hu⟩ := literal_head l
  obtain ⟨hspace, hbrace, hbracket, hquote, hn, htrue, hfalse, -⟩ := literal_head_ne hu
  rw [ht, List.cons_append] at hread ⊢
  rw [readDocument]
  simp only [skipSpace_cons hspace]
  rw [if_neg hbrace, if_neg hbracket, if_neg hquote]
  rw [show Text.after? (Text.ofString "null") (u :: (t ++ rest)) = none from after?_ne hn.symm _ _,
    show Text.after? (Text.ofString "true") (u :: (t ++ rest)) = none from after?_ne htrue.symm _ _,
    show Text.after? (Text.ofString "false") (u :: (t ++ rest)) = none from
      after?_ne hfalse.symm _ _, hread]
  rfl

/-! ## Parts -/

/-- The JSON text of a part; what has none is null. -/
def textOf (indent : Text) (level : Nat) (v : Value) : Text := (render? indent level v).getD "null"

def joined (indent : Text) (level : Nat) (parts : List Text) : Text :=
  Text.join (Text.unit ',' :: newline indent) (parts.map (margin indent level ++ ·))

theorem joined_single (p : Text) : joined indent level [p] = margin indent level ++ p := rfl

theorem joined_cons (p : Text) {ps : List Text} (h : ps ≠ []) : joined indent level (p :: ps) =
    margin indent level ++ (p ++ 0x2C :: (newline indent ++ joined indent level ps)) := by
  cases ps with
  | nil => exact absurd rfl h
  | cons q ps => simp [joined, Text.join, Text.unit]

theorem readItems_last {d : Document} (hsp : Blank sp) (ht : Blank tail)
    (hd : readDocument fuel (t ++ (tail ++ 0x5D :: rest)) = some (d, tail ++ 0x5D :: rest)) :
    readItems (fuel + 1) (sp ++ (t ++ (tail ++ 0x5D :: rest))) = some ([d], rest) := by
  rw [readItems_blank hsp, readItems, hd]
  simp [skipSpace_blank ht, skipSpace_cons (show isSpace 0x5D = false from rfl)]

theorem readItems_more {d : Document} {ds : List Document} {more : Text} (hsp : Blank sp)
    (ht : Blank tail)
    (hd : readDocument fuel (t ++ 0x2C :: (tail ++ more)) = some (d, 0x2C :: (tail ++ more)))
    (hds : readItems fuel more = some (ds, rest)) :
    readItems (fuel + 1) (sp ++ (t ++ 0x2C :: (tail ++ more))) = some (d :: ds, rest) := by
  rw [readItems_blank hsp, readItems, hd]
  simp [skipSpace_cons (show isSpace 0x2C = false from rfl), readItems_blank ht, hds]

def afterColon (indent : Text) : Text := if indent.isEmpty then [] else [0x20]

theorem colon_eq (indent : Text) : colon indent = 0x3A :: afterColon indent := by
  unfold colon afterColon
  split <;> rfl

theorem blank_afterColon (indent : Text) : Blank (afterColon indent) := by
  unfold afterColon
  split
  · exact fun u hu => by cases hu
  · intro u hu
    obtain rfl : u = 0x20 := by simpa using hu
    rfl

theorem readMembers_member (hsp : Blank sp) (name more : Text) :
    readMembers (fuel + 1) (sp ++ (quote name ++ (colon indent ++ more))) =
      (readDocument fuel more).bind fun (d, t) =>
        match skipSpace t with
        | 0x2C :: rest => (readMembers fuel rest).map fun (ms, rest) => ((name, d) :: ms, rest)
        | 0x7D :: rest => some ([(name, d)], rest)
        | _ => none := by
  rw [readMembers_blank hsp, quote, List.cons_append, List.append_assoc, readMembers,
    skipSpace_cons (show isSpace 0x22 = false from rfl)]
  simp only
  rw [List.singleton_append, readText_quoteBody, colon_eq, List.cons_append]
  simp only [Option.bind_eq_bind, Option.bind_some,
    skipSpace_cons (show isSpace 0x3A = false from rfl), readDocument_blank (blank_afterColon indent)]
  congr 1
  funext x
  obtain ⟨d, t⟩ := x
  simp only
  split
  · simp only [*, Option.map_eq_bind]
    rfl
  · simp only [*]
  · simp

/-! ## Values -/

theorem textOf_object (ms : Members) : textOf indent level (.object ms) =
    if speaksForItself ms then ("null" : Text) else if ms.isEmpty then ("\x7b\x7d" : Text)
      else bracketed indent level 0x7B 0x7D (renderMembers indent (level + 1) ms) := by
  rw [textOf, render?]
  split <;> rfl

theorem textOf_array (items : List Value) : textOf indent level (.array items) =
    if items.isEmpty then ("[]" : Text)
      else bracketed indent level 0x5B 0x5D (renderItems indent (level + 1) items) := by
  rw [textOf, render?]
  rfl

theorem textOf_error (m : Text) (ms : Members) :
    textOf indent level (.error m ms) = textOf indent level (.object ms) := rfl

theorem bracketed_eq (indent : Text) (level : Nat) (opening closing : UInt16) (parts : List Text)
    (rest : Text) : bracketed indent level opening closing parts ++ rest = opening :: (newline indent ++
      (joined indent (level + 1) parts ++ ((newline indent ++ margin indent level) ++ closing :: rest))) := by
  simp [bracketed, joined]

theorem bracketed_length (opening closing : UInt16) (parts : List Text) :
    (bracketed indent level opening closing parts).length =
      (joined indent (level + 1) parts).length + (newline indent ++ newline indent ++
        margin indent level).length + 2 := by
  have h := congrArg List.length (bracketed_eq indent level opening closing parts [])
  simp only [List.length_append, List.length_cons, List.append_nil, List.length_nil] at h ⊢
  omega

/-- A text that begins neither with space, nor with the end of a list, nor with a byte order mark. -/
def Opens (t : Text) : Prop := ∃ u s, t = u :: s ∧ isSpace u = false ∧ u ≠ 0x5D ∧ u ≠ 0xFEFF

theorem literal_opens (l : Literal) : Opens l.text := by
  obtain ⟨u, t, ht, hu⟩ := literal_head l
  obtain ⟨hspace, -, -, -, -, -, -, hne, hmark⟩ := literal_head_ne hu
  exact ⟨u, t, ht, hspace, hne, hmark⟩

theorem object_opens (indent : Text) (level : Nat) (ms : Members) :
    Opens (textOf indent level (.object ms)) := by
  rw [textOf_object]
  split
  · exact ⟨_, _, rfl, rfl, by decide⟩
  split
  · exact ⟨_, _, rfl, rfl, by decide⟩
  · exact ⟨_, _, rfl, rfl, by decide⟩

theorem textOf_opens (indent : Text) (level : Nat) (v : Value) : Opens (textOf indent level v) := by
  cases v with
  | null => exact ⟨_, _, rfl, rfl, by decide⟩
  | bool b => cases b <;> exact ⟨_, _, rfl, rfl, by decide⟩
  | number x =>
    rw [textOf, render?]
    split
    · rename_i h
      rw [← Double.literal_text h]
      exact literal_opens _
    · exact ⟨_, _, rfl, rfl, by decide⟩
  | exact l => exact literal_opens l
  | text s => exact ⟨_, _, rfl, rfl, by decide⟩
  | array items =>
    rw [textOf_array]
    split
    · exact ⟨_, _, rfl, rfl, by decide⟩
    · exact ⟨_, _, rfl, rfl, by decide⟩
  | object ms => exact object_opens indent level ms
  | error m ms => exact object_opens indent level ms
  | undefined => exact ⟨_, _, rfl, rfl, by decide⟩
  | function => exact ⟨_, _, rfl, rfl, by decide⟩
  | symbol => exact ⟨_, _, rfl, rfl, by decide⟩
  | bigint n =>
    rw [textOf, render?, ofInt_eq_literal]
    exact literal_opens _

theorem isPrinted_iff (indent : Text) (level : Nat) (v : Value) : (render? indent level v).isSome = v.isPrinted := by
  cases v with
  | bool b => cases b <;> rfl
  | object ms =>
    rw [render?, Value.isPrinted]
    split <;> simp [*]
  | error m ms =>
    rw [render?, Value.isPrinted]
    split <;> simp [*]
  | _ => simp [render?, Value.isPrinted]

theorem endsNumber_closing (h : Blank tail) : Text.EndsNumber (tail ++ 0x5D :: rest) ∧
    Text.EndsNumber (tail ++ 0x7D :: rest) := by
  constructor <;> refine endsNumber_blank h fun u hu => ?_ <;> cases hu <;> decide

theorem endsNumber_comma (rest : Text) : Text.EndsNumber (0x2C :: rest) := by
  intro u hu
  cases hu
  decide

theorem skipSpace_joined (hi : Blank indent) {parts : List Text} {p : Text}
    (hp : parts.head? = some (u :: p)) (hu : isSpace u = false) (rest : Text) :
    ∃ t, skipSpace (newline indent ++ (joined indent level parts ++ rest)) = u :: t := by
  obtain ⟨ps, rfl⟩ : ∃ ps, parts = (u :: p) :: ps := by
    cases parts with
    | nil => cases hp
    | cons q ps => exact ⟨ps, by rw [Option.some.inj hp]⟩
  rw [skipSpace_blank (blank_newline indent)]
  cases ps with
  | nil =>
    rw [joined_single, List.append_assoc, skipSpace_blank (blank_margin hi level), List.cons_append,
      skipSpace_cons hu]
    exact ⟨_, rfl⟩
  | cons q ps =>
    rw [joined_cons _ (by simp), List.append_assoc, skipSpace_blank (blank_margin hi level),
      List.cons_append, List.cons_append, skipSpace_cons hu]
    exact ⟨_, rfl⟩

theorem readDocument_array (hi : Blank indent) {parts : List Text} {p : Text} {ds : List Document}
    (hp : parts.head? = some (u :: p)) (hspace : isSpace u = false) (hne : u ≠ 0x5D)
    (hread : readItems fuel (joined indent (level + 1) parts ++
      ((newline indent ++ margin indent level) ++ 0x5D :: rest)) = some (ds, rest)) :
    readDocument (fuel + 1) (bracketed indent level 0x5B 0x5D parts ++ rest) =
      some (.array ds, rest) := by
  obtain ⟨t, ht⟩ := skipSpace_joined hi hp hspace
    ((newline indent ++ margin indent level) ++ 0x5D :: rest)
  rw [bracketed_eq, readDocument, skipSpace_cons (show isSpace 0x5B = false from rfl)]
  simp only
  rw [if_neg (by decide), if_pos (by rfl), ht, readItems_blank (blank_newline indent), hread]
  -- the first part does not begin like the end of an empty list
  split
  · exact absurd (List.cons.inj ‹_›).1 hne
  · rfl

theorem readDocument_object (hi : Blank indent) {parts : List Text} {p : Text}
    {ms : List (Text × Document)} (hp : parts.head? = some (0x22 :: p))
    (hread : readMembers fuel (joined indent (level + 1) parts ++
      ((newline indent ++ margin indent level) ++ 0x7D :: rest)) = some (ms, rest)) :
    readDocument (fuel + 1) (bracketed indent level 0x7B 0x7D parts ++ rest) =
      some (.object ms, rest) := by
  obtain ⟨t, ht⟩ := skipSpace_joined hi hp rfl
    ((newline indent ++ margin indent level) ++ 0x7D :: rest)
  rw [bracketed_eq, readDocument, skipSpace_cons (show isSpace 0x7B = false from rfl)]
  simp only
  rw [if_pos (by rfl), ht, readMembers_blank (blank_newline indent), hread]
  rfl

theorem readDocument_emptyObject (hi : Blank indent) (rest : Text) :
    readDocument (fuel + 1) (bracketed indent level 0x7B 0x7D [] ++ rest) = some (.object [], rest) := by
  rw [bracketed_eq, readDocument, skipSpace_cons (show isSpace 0x7B = false from rfl)]
  simp only
  rw [if_pos (by rfl), skipSpace_blank (blank_newline indent), show joined indent (level + 1) [] = [] from rfl,
    List.nil_append, skipSpace_blank (blank_append (blank_newline indent) (blank_margin hi level)),
    skipSpace_cons (show isSpace 0x7D = false from rfl)]
  rfl

theorem renderItems_cons (v : Value) (items : List Value) :
    renderItems indent level (v :: items) = textOf indent level v :: renderItems indent level items := rfl

theorem renderMembers_cons (name : Text) (v : Value) (ms : Members) :
    renderMembers indent level ((name, v) :: ms) =
      if v.isPrinted then (quote name ++ colon indent ++ textOf indent level v) ::
        renderMembers indent level ms
      else renderMembers indent level ms := by
  have h := isPrinted_iff indent level v
  rw [renderMembers, textOf]
  cases hr : render? indent level v with
  | none => simp [← h, hr]
  | some t => simp [← h, hr]

theorem renderMembers_head : ∀ (ms : Members), renderMembers indent level ms ≠ [] →
    ∃ p, (renderMembers indent level ms).head? = some (0x22 :: p)
  | [], h => absurd rfl h
  | (name, v) :: ms, h => by
    rw [renderMembers_cons] at h ⊢
    split
    · exact ⟨_, rfl⟩
    · rw [if_neg ‹_›] at h
      exact renderMembers_head ms h

theorem writtenMembers_nil : ∀ (ms : Members), renderMembers indent level ms = [] →
    Value.writtenMembers ms = []
  | [], _ => rfl
  | (name, v) :: ms, h => by
    rw [renderMembers_cons] at h
    rw [Value.writtenMembers]
    split at h
    · cases h
    · rw [if_neg ‹_›]
      exact writtenMembers_nil ms h

theorem readDocument_members (hi : Blank indent) (ms : Members)
    (hread : renderMembers indent (level + 1) ms ≠ [] → ¬ speaksForItself ms = true →
      ¬ ms.isEmpty = true → readMembers fuel (joined indent (level + 1) (renderMembers indent (level + 1) ms) ++
        ((newline indent ++ margin indent level) ++ 0x7D :: rest)) =
      some (Value.writtenMembers ms, rest)) :
    readDocument (fuel + 1) (textOf indent level (.object ms) ++ rest) =
      some ((Value.object ms).written, rest) := by
  rw [textOf_object, Value.written]
  split
  · rfl
  split
  · rename_i hempty
    rw [List.isEmpty_iff.1 hempty]
    rfl
  -- an object may have members of which none has a text
  · rename_i hs he
    by_cases hnil : renderMembers indent (level + 1) ms = []
    · rw [hnil, writtenMembers_nil ms hnil]
      exact readDocument_emptyObject hi rest
    · obtain ⟨p, hp⟩ := renderMembers_head ms hnil
      exact readDocument_object hi hp (hread hnil hs he)

theorem readDocument_scalar {v : Value} (hr : rest.EndsNumber)
    (hv : ∀ items, v ≠ .array items) (hv' : ∀ ms, v ≠ .object ms) (hv'' : ∀ m ms, v ≠ .error m ms) :
    readDocument (fuel + 1) (textOf indent level v ++ rest) = some (v.written, rest) := by
  cases v with
  | null => rfl
  | bool b => cases b <;> rfl
  | number x =>
    rw [textOf, render?, Value.written]
    split
    · rename_i h
      rw [← Double.literal_text h]
      exact readDocument_literal _ hr
    · rfl
  | exact l => exact readDocument_literal l hr
  | text s => exact readDocument_quote s rest
  | array items => exact absurd rfl (hv items)
  | object ms => exact absurd rfl (hv' ms)
  | error m ms => exact absurd rfl (hv'' m ms)
  | undefined => rfl
  | function => rfl
  | symbol => rfl
  | bigint n =>
    rw [textOf, render?, ofInt_eq_literal]
    exact readDocument_literal _ hr

theorem textOf_length_pos (indent : Text) (level : Nat) (v : Value) :
    0 < (textOf indent level v).length := by
  obtain ⟨u, t, h, -⟩ := textOf_opens indent level v
  rw [h]
  exact Nat.succ_pos _

mutual

theorem readDocument_textOf (hi : Blank indent) : ∀ (v : Value) (level fuel : Nat) (rest : Text),
    2 * (textOf indent level v).length ≤ fuel + 1 → rest.EndsNumber →
    readDocument (fuel + 1) (textOf indent level v ++ rest) = some (v.written, rest)
  | .null, _, _, _, _, hr => readDocument_scalar hr nofun nofun nofun
  | .bool _, _, _, _, _, hr => readDocument_scalar hr nofun nofun nofun
  | .number _, _, _, _, _, hr => readDocument_scalar hr nofun nofun nofun
  | .exact _, _, _, _, _, hr => readDocument_scalar hr nofun nofun nofun
  | .text _, _, _, _, _, hr => readDocument_scalar hr nofun nofun nofun
  | .undefined, _, _, _, _, hr => readDocument_scalar hr nofun nofun nofun
  | .function, _, _, _, _, hr => readDocument_scalar hr nofun nofun nofun
  | .symbol, _, _, _, _, hr => readDocument_scalar hr nofun nofun nofun
  | .bigint _, _, _, _, _, hr => readDocument_scalar hr nofun nofun nofun
  | .array [], _, _, _, _, _ => rfl
  | .array (v :: items), level, fuel, rest, hf, _ => by
    rw [textOf_array, List.isEmpty_cons, if_neg Bool.false_ne_true, bracketed_length] at hf
    rw [textOf_array, List.isEmpty_cons, if_neg Bool.false_ne_true, Value.written]
    obtain ⟨u, t, hhead, hspace, hne, -⟩ := textOf_opens indent (level + 1) v
    exact readDocument_array hi (congrArg some hhead) hspace hne
      (readItems_joined hi (v :: items) (level + 1) fuel _ rest
        (blank_append (blank_newline indent) (blank_margin hi level)) (List.cons_ne_nil v items)
        (by omega))
  | .object ms, level, fuel, rest, hf, _ =>
    readDocument_members hi ms fun hnil hs he => by
      rw [textOf_object, if_neg hs, if_neg he, bracketed_length] at hf
      exact readMembers_joined hi ms (level + 1) fuel _ rest
        (blank_append (blank_newline indent) (blank_margin hi level)) hnil (by omega)
  | .error m ms, level, fuel, rest, hf, _ =>
    readDocument_members hi ms fun hnil hs he => by
      rw [textOf_error, textOf_object, if_neg hs, if_neg he, bracketed_length] at hf
      exact readMembers_joined hi ms (level + 1) fuel _ rest
        (blank_append (blank_newline indent) (blank_margin hi level)) hnil (by omega)

theorem readItems_joined (hi : Blank indent) : ∀ (items : List Value) (level fuel : Nat)
    (tail rest : Text), Blank tail → items ≠ [] →
    2 * (joined indent level (renderItems indent level items)).length < fuel →
    readItems fuel (joined indent level (renderItems indent level items) ++ (tail ++ 0x5D :: rest)) =
      some (Value.writtenItems items, rest)
  | [], _, _, _, _, _, hne, _ => absurd rfl hne
  | v :: items, level, fuel, tail, rest, ht, _, hf => by
    -- the text of an item is not empty, which leaves fuel for the item and for what follows it
    have hpos := textOf_length_pos indent level v
    rw [renderItems_cons] at hf ⊢
    rw [Value.writtenItems]
    by_cases hnil : items = []
    · subst hnil
      rw [show renderItems indent level [] = [] from rfl, joined_single] at hf ⊢
      rw [List.length_append] at hf
      obtain ⟨fuel, rfl⟩ : ∃ n, fuel = n + 2 := ⟨fuel - 2, by omega⟩
      rw [List.append_assoc]
      exact readItems_last (blank_margin hi level) ht (readDocument_textOf hi v level _ _ (by omega)
        (endsNumber_closing ht).1)
    · have hne : renderItems indent level items ≠ [] := by
        cases items with
        | nil => exact absurd rfl hnil
        | cons w items => exact List.cons_ne_nil _ _
      rw [joined_cons _ hne] at hf ⊢
      simp only [List.length_append, List.length_cons] at hf
      obtain ⟨fuel, rfl⟩ : ∃ n, fuel = n + 2 := ⟨fuel - 2, by omega⟩
      simp only [List.append_assoc, List.cons_append]
      exact readItems_more (blank_margin hi level) (blank_newline indent)
        (readDocument_textOf hi v level _ _ (by omega) (endsNumber_comma _))
        (readItems_joined hi items level _ tail rest ht hnil (by omega))

theorem readMembers_joined (hi : Blank indent) : ∀ (ms : List (Text × Value)) (level fuel : Nat)
    (tail rest : Text), Blank tail → renderMembers indent level ms ≠ [] →
    2 * (joined indent level (renderMembers indent level ms)).length < fuel →
    readMembers fuel (joined indent level (renderMembers indent level ms) ++ (tail ++ 0x7D :: rest)) =
      some (Value.writtenMembers ms, rest)
  | [], _, _, _, _, _, hne, _ => absurd rfl hne
  | (name, v) :: ms, level, fuel, tail, rest, ht, hne, hf => by
    have hpos := textOf_length_pos indent level v
    rw [renderMembers_cons] at hne hf ⊢
    rw [Value.writtenMembers]
    split
    · rename_i hprinted
      rw [if_pos hprinted] at hf
      by_cases hnil : renderMembers indent level ms = []
      · rw [hnil, joined_single] at hf ⊢
        rw [writtenMembers_nil ms hnil]
        simp only [List.length_append] at hf
        obtain ⟨fuel, rfl⟩ : ∃ n, fuel = n + 2 := ⟨fuel - 2, by omega⟩
        simp only [List.append_assoc]
        rw [readMembers_member (blank_margin hi level), readDocument_textOf hi v level _ _ (by omega)
          (endsNumber_closing ht).2]
        simp [skipSpace_blank ht, skipSpace_cons (show isSpace 0x7D = false from rfl)]
      · rw [joined_cons _ hnil] at hf ⊢
        simp only [List.length_append, List.length_cons] at hf
        obtain ⟨fuel, rfl⟩ : ∃ n, fuel = n + 2 := ⟨fuel - 2, by omega⟩
        simp only [List.append_assoc, List.cons_append]
        have hmore := readMembers_joined hi ms level (fuel + 1) tail rest ht hnil (by omega)
        rw [readMembers_member (blank_margin hi level), readDocument_textOf hi v level _ _ (by omega)
          (endsNumber_comma _)]
        simp [skipSpace_cons (show isSpace 0x2C = false from rfl), readMembers_blank (blank_newline indent),
          hmore]
    -- a member without text is neither printed nor in the document
    · rename_i hprinted
      rw [if_neg hprinted] at hne hf
      exact readMembers_joined hi ms level fuel tail rest ht hne hf

end

/-- **What is printed is read again**, under any indent of blanks. -/
theorem document?_print (hi : Blank indent) (v : Value) :
    document? (print indent v) = some v.written := by
  have h := readDocument_textOf hi v 0 (2 * (print indent v).length + 1) [] (by
    rw [print, ← textOf]
    omega) (fun u hu => by cases hu)
  rw [List.append_nil] at h
  rw [document?, print, ← textOf]
  rw [print, ← textOf] at h
  rw [h]
  rfl

end Json

end Lifecycle
