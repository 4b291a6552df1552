import Lifecycle.Json.Value

/- JSON text of values.

   Literals are printed as they were written, doubles in their shortest form, with
   negative zero as zero and what is not finite as null. Members whose value has no
   JSON text are left out; such items of a list are null. An object that brings a
   function under the name `toJSON` speaks for itself, and has no text. Halves of
   surrogate pairs are escaped, so the text can be sent as UTF-8. -/
namespace Lifecycle.Json

/-! ## Text literals -/

def hexChar (n : Nat) : UInt16 := UInt16.ofNat (if n < 10 then 0x30 + n else 0x57 + n)

def numericEscape (u : UInt16) : Text :=
  let n := u.toNat
  [0x5C, 0x75, hexChar (n / 0x1000), hexChar (n / 0x100 % 0x10), hexChar (n / 0x10 % 0x10),
    hexChar (n % 0x10)]

/-- A unit inside quotes, halves of surrogate pairs aside. -/
def quoteUnit (u : UInt16) : Text :=
  if u = 0x22 then [0x5C, 0x22]
  else if u = 0x5C then [0x5C, 0x5C]
  else if u = 0x08 then [0x5C, Text.unit 'b']
  else if u = 0x0C then [0x5C, Text.unit 'f']
  else if u = 0x0A then [0x5C, Text.unit 'n']
  else if u = 0x0D then [0x5C, Text.unit 'r']
  else if u = 0x09 then [0x5C, Text.unit 't']
  else if u < 0x20 then numericEscape u
  else [u]

/-- The units of a text inside quotes; a surrogate is plain only as part of a pair. -/
def quoteBody : Text → Text
  | [] => []
  | u :: rest =>
    if 0xD800 ≤ u && u < 0xDC00 then
      match rest with
      | v :: rest' =>
        if 0xDC00 ≤ v && v < 0xE000 then u :: v :: quoteBody rest'
        else numericEscape u ++ quoteBody (v :: rest')
      | [] => numericEscape u
    else if 0xDC00 ≤ u && u < 0xE000 then numericEscape u ++ quoteBody rest
    else quoteUnit u ++ quoteBody rest

def quote (s : Text) : Text := 0x22 :: (quoteBody s ++ [0x22])

/-! ## Layout -/

/-- The margin of a nesting level: the indent once per level. -/
def margin (indent : Text) (level : Nat) : Text := (List.replicate level indent).flatten

/-- The line break between parts; nothing without an indent. -/
def newline (indent : Text) : Text := if indent.isEmpty then [] else [0x0A]

/-- Parts between brackets, each on a line of its own when there is an indent. -/
def bracketed (indent : Text) (level : Nat) (opening closing : UInt16) (parts : List Text) : Text :=
  opening :: newline indent ++
    Text.join (Text.unit ',' :: newline indent) (parts.map (margin indent (level + 1) ++ ·)) ++
    newline indent ++ margin indent level ++ [closing]

def colon (indent : Text) : Text := if indent.isEmpty then ":" else ": "

/-! ## Values -/

/-- Whether members are those of an object that speaks for itself. -/
def speaksForItself (ms : Members) : Bool :=
  match Member.find? "toJSON" ms with
  | some .function => true
  | _ => false

mutual

/-- The JSON text of a value, if it has one. -/
def render? (indent : Text) (level : Nat) : Value → Option Text
  | .null => some "null"
  | .bool true => some "true"
  | .bool false => some "false"
  | .number x => some (if x.isFinite then x.toText else "null")
  | .exact l => some l.text
  | .text s => some (quote s)
  | .array items =>
    some (if items.isEmpty then "[]"
      else bracketed indent level 0x5B 0x5D (renderItems indent (level + 1) items))
  | .object ms =>
    if speaksForItself ms then none
    else some (if ms.isEmpty then "\x7b\x7d"
      else bracketed indent level 0x7B 0x7D (renderMembers indent (level + 1) ms))
  | .error _ ms =>
    if speaksForItself ms then none
    else some (if ms.isEmpty then "\x7b\x7d"
      else bracketed indent level 0x7B 0x7D (renderMembers indent (level + 1) ms))
  | .undefined => none
  | .function => none
  | .symbol => none
  | .bigint n => some (Text.ofInt n)

def renderItems (indent : Text) (level : Nat) : List Value → List Text
  | [] => []
  | v :: rest => (render? indent level v).getD "null" :: renderItems indent level rest

def renderMembers (indent : Text) (level : Nat) : List (Text × Value) → List Text
  | [] => []
  | (name, v) :: rest =>
    match render? indent level v with
    | some t => (quote name ++ colon indent ++ t) :: renderMembers indent level rest
    | none => renderMembers indent level rest

end

/-- The JSON text of a value with the given indent; what has none is null. -/
def print (indent : Text) (v : Value) : Text := (render? indent 0 v).getD "null"

/-- The JSON text of a value on one line. -/
def compact (v : Value) : Text := print [] v

/-- The JSON text of a value over indented lines. -/
def pretty (v : Value) : Text := print "  " v

def maxIndent : Nat := 10

/-- The indent that a requested number of blanks gives: a whole number, at most the greatest. -/
def blanks (space : Double) : Nat :=
  if space.lt (.ofNat 1) then 0
  else if (Double.ofNat maxIndent).le space then maxIndent
  else match space.steps? with
    | some s => (s / Double.stepsPerOne).toNat
    | none => 0

/-- The indent that a value asks for: a number of blanks, or a text up to the greatest length. -/
def indentOf : Value → Text
  | .number x => List.replicate (blanks x) 0x20
  | .text t => t.take maxIndent
  | _ => []

end Lifecycle.Json
