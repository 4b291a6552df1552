import Lifecycle.Text
import Lifecycle.Json.Document

/- Reading JSON text.

   One recursive descent over the units of the text. The fuel counts nested and
   following parts; twice the length of the text is always enough, because every
   part takes at least one unit. -/
namespace Lifecycle.Json

/-! ## Lexemes -/

/-- The four units that may stand between lexemes. -/
def isSpace (u : UInt16) : Bool := u == 0x20 || u == 0x0A || u == 0x0D || u == 0x09

def skipSpace (t : Text) : Text := t.dropWhile isSpace

/-- The unit that four digits of base sixteen spell. -/
def hexUnit? (a b c d : UInt16) : Option UInt16 := do
  let a ← Text.hexDigit? a
  let b ← Text.hexDigit? b
  let c ← Text.hexDigit? c
  let d ← Text.hexDigit? d
  some (UInt16.ofNat (((a * 16 + b) * 16 + c) * 16 + d))

def escaped? (u : UInt16) : Option UInt16 :=
  if u = Text.unit '"' ∨ u = Text.unit '\\' ∨ u = Text.unit '/' then some u
  else if u = Text.unit 'b' then some 0x08
  else if u = Text.unit 'f' then some 0x0C
  else if u = Text.unit 'n' then some 0x0A
  else if u = Text.unit 'r' then some 0x0D
  else if u = Text.unit 't' then some 0x09
  else none

/-- The rest of a text literal, after its opening quote. -/
def readText : Text → Option (Text × Text)
  | [] => none
  | 0x5C :: 0x75 :: a :: b :: c :: d :: rest => do
    let u ← hexUnit? a b c d
    let (s, rest) ← readText rest
    some (u :: s, rest)
  | 0x5C :: e :: rest => do
    let u ← escaped? e
    let (s, rest) ← readText rest
    some (u :: s, rest)
  | u :: rest =>
    if u = Text.unit '"' then some ([], rest)
    else if u < 0x20 ∨ u = Text.unit '\\' then none
    else do
      let (s, rest) ← readText rest
      some (u :: s, rest)

/-! ## Documents -/

mutual

/-- A document at the start of a text, after leading space. -/
def readDocument : Nat → Text → Option (Document × Text)
  | 0, _ => none
  | fuel + 1, t =>
    match skipSpace t with
    | [] => none
    | u :: rest =>
      if u = Text.unit '\x7b' then
        match skipSpace rest with
        | 0x7D :: rest' => some (.object [], rest')
        | _ => (readMembers fuel rest).map fun (ms, rest') => (.object ms, rest')
      else if u = Text.unit '[' then
        match skipSpace rest with
        | 0x5D :: rest' => some (.array [], rest')
        | _ => (readItems fuel rest).map fun (ds, rest') => (.array ds, rest')
      else if u = Text.unit '"' then
        (readText rest).map fun (s, rest') => (.text s, rest')
      else
        match Text.after? "null" (u :: rest), Text.after? "true" (u :: rest),
            Text.after? "false" (u :: rest) with
        | some rest', _, _ => some (.null, rest')
        | _, some rest', _ => some (.bool true, rest')
        | _, _, some rest' => some (.bool false, rest')
        | _, _, _ => (Literal.read (u :: rest)).map fun (l, rest') => (.number l, rest')

/-- The items of a list up to its closing bracket. -/
def readItems : Nat → Text → Option (List Document × Text)
  | 0, _ => none
  | fuel + 1, t => do
    let (d, t) ← readDocument fuel t
    match skipSpace t with
    | 0x2C :: rest =>
      let (ds, rest) ← readItems fuel rest
      some (d :: ds, rest)
    | 0x5D :: rest => some ([d], rest)
    | _ => none

/-- The members of an object up to its closing brace. -/
def readMembers : Nat → Text → Option (List (Text × Document) × Text)
  | 0, _ => none
  | fuel + 1, t =>
    match skipSpace t with
    | 0x22 :: t => do
      let (name, t) ← readText t
      match skipSpace t with
      | 0x3A :: t =>
        let (d, t) ← readDocument fuel t
        match skipSpace t with
        | 0x2C :: rest =>
          let (ms, rest) ← readMembers fuel rest
          some ((name, d) :: ms, rest)
        | 0x7D :: rest => some ([(name, d)], rest)
        | _ => none
      | _ => none
    | _ => none

end

def document? (t : Text) : Option Document :=
  match readDocument (2 * t.length + 2) t with
  | some (d, rest) => if (skipSpace rest).isEmpty then some d else none
  | none => none

/-- The value a text denotes, or nothing if it is not JSON. -/
def parse? (t : Text) : Option Value := (document? t).map Document.toValue

end Lifecycle.Json
