import Lifecycle.Text
import Lifecycle.Number.Shortest

/- JSON number literals, digit by digit.

   Every value of the type is a well-formed literal: the whole part is a natural
   number because JSON allows no leading zeros, and an exponent has a first digit.
   A literal is safe to hold as a double when nothing of its value is lost: an
   integer within 2^53 - 1, or a literal whose significant digits are those of the
   nearest double. -/
namespace Lifecycle

/-- The exponent of a literal as written. -/
structure Exponent where
  upper : Bool
  sign : Option Bool
  lead : Fin 10
  rest : List (Fin 10)
deriving DecidableEq

/-- A JSON number as written; an empty fraction means that there is no point. -/
structure Literal where
  negative : Bool
  whole : Nat
  fraction : List (Fin 10)
  exponent : Option Exponent
deriving DecidableEq

namespace Exponent

def text (e : Exponent) : Text :=
  (if e.upper then Text.unit 'E' else Text.unit 'e') ::
    ((match e.sign with | none => [] | some true => [Text.unit '-'] | some false => [Text.unit '+']) ++
      Double.digitText (e.lead :: e.rest))

def value (e : Exponent) : Int :=
  let n : Int := Decimal.ofDigits (e.lead :: e.rest)
  if e.sign = some true then -n else n

end Exponent

namespace Literal

/-! ## Writing -/

def text (l : Literal) : Text :=
  (if l.negative then [Text.unit '-'] else []) ++ Text.ofNat l.whole ++
    (if l.fraction.isEmpty then [] else Text.unit '.' :: Double.digitText l.fraction) ++
    (match l.exponent with | none => [] | some e => e.text)

/-! ## Value -/

def digits (l : Literal) : List (Fin 10) := Decimal.digitsOf l.whole ++ l.fraction

def decimal (l : Literal) : Decimal where
  negative := l.negative
  coefficient := Decimal.ofDigits l.digits
  exponent := (match l.exponent with | none => 0 | some e => e.value) - l.fraction.length

def toDouble (l : Literal) : Double := l.decimal.toDouble

def isInteger (l : Literal) : Bool := l.fraction.isEmpty && l.exponent.isNone

/-- The largest integer up to which every integer is a double. -/
def safeLimit : Nat := Nat.pow 2 53 - 1

/-- Whether the nearest double stands for the literal without loss. -/
def isSafe (l : Literal) : Bool :=
  if l.isInteger then l.whole ≤ safeLimit
  else
    match l.toDouble with
    | .finite _ rank =>
      let integral : Bool := match (l.toDouble).toInt? with
        | some n => safeLimit < n.natAbs
        | none => false
      !integral && Decimal.significant l.digits == (Double.shortestDigits rank.val).1
    | _ => false

/-! ## Reading -/

/-- The whole part: zero alone, or digits that begin with another. -/
def readWhole (t : Text) : Option (Nat × Text) :=
  match t with
  | [] => none
  | u :: rest =>
    match Text.digit? u with
    | none => none
    | some d =>
      if d.val = 0 then some (0, rest)
      else let (ds, rest') := Text.spanDigits rest; some (Decimal.ofDigits (d :: ds), rest')

/-- The fraction, if a point follows; a point needs a digit. -/
def readFraction : Text → Option (List (Fin 10) × Text)
  | 0x2E :: rest =>
    match Text.spanDigits rest with
    | ([], _) => none
    | (ds, rest') => some (ds, rest')
  | t => some ([], t)

/-- The digits of an exponent, of which there is at least one. -/
def readExponentDigits (upper : Bool) (sign : Option Bool) (t : Text) : Option (Option Exponent × Text) :=
  match Text.spanDigits t with
  | ([], _) => none
  | (d :: ds, rest) => some (some ⟨upper, sign, d, ds⟩, rest)

def readExponent : Text → Option (Option Exponent × Text)
  | [] => some (none, [])
  | u :: rest =>
    if u = Text.unit 'e' ∨ u = Text.unit 'E' then
      let upper : Bool := u == Text.unit 'E'
      match rest with
      | 0x2B :: rest' => readExponentDigits upper (some false) rest'
      | 0x2D :: rest' => readExponentDigits upper (some true) rest'
      | _ => readExponentDigits upper none rest
    else some (none, u :: rest)

/-- The literal at the start of a text and what follows it. -/
def read (t : Text) : Option (Literal × Text) := do
  let (negative, t) := match t with | 0x2D :: rest => (true, rest) | _ => (false, t)
  let (whole, t) ← readWhole t
  let (fraction, t) ← readFraction t
  let (exponent, t) ← readExponent t
  some (⟨negative, whole, fraction, exponent⟩, t)

def ofText? (t : Text) : Option Literal :=
  match read t with
  | some (l, []) => some l
  | _ => none

end Literal

end Lifecycle
