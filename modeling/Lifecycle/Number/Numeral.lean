import Lifecycle.Text
import Lifecycle.Number.Decimal

/- Numbers as people type them.

   Blanks around a numeral do not count, and nothing at all is zero. A numeral is
   decimal, with an optional sign, point and exponent and a digit on one side of the
   point, or a signed `Infinity`, or unsigned digits of base two, eight or sixteen
   after `0b`, `0o` or `0x`. Its number is the nearest double. -/
namespace Lifecycle.Numeral

/-! ## Digits -/

/-- The number that digits of a base spell; there has to be one. -/
def inBase? (base : Nat) (t : Text) : Option Nat :=
  if t.isEmpty then none
  else t.foldlM (fun n u => (Text.hexDigit? u).bind fun d =>
    if d < base then some (base * n + d) else none) 0

/-- The base that a mark of two units announces. -/
def base? (u : UInt16) : Option Nat :=
  if u = Text.unit 'b' ∨ u = Text.unit 'B' then some 2
  else if u = Text.unit 'o' ∨ u = Text.unit 'O' then some 8
  else if u = Text.unit 'x' ∨ u = Text.unit 'X' then some 16
  else none

/-! ## Decimal numerals -/

/-- A sign at the start of a text: whether it is a minus, and the rest. -/
def readSign : Text → Bool × Text
  | 0x2B :: rest => (false, rest)
  | 0x2D :: rest => (true, rest)
  | t => (false, t)

/-- The power of ten that an exponent names; nothing names zero. -/
def exponent? : Text → Option Int
  | [] => some 0
  | u :: rest =>
    if u = Text.unit 'e' ∨ u = Text.unit 'E' then
      let (negative, digits) := readSign rest
      match Text.spanDigits digits with
      | (d :: ds, []) =>
        let n : Int := Decimal.ofDigits (d :: ds)
        some (if negative then -n else n)
      | _ => none
    else none

/-- The digits after a point, if there is one, and what follows them. -/
def readFraction : Text → List (Fin 10) × Text
  | 0x2E :: rest => Text.spanDigits rest
  | t => ([], t)

def decimal? (negative : Bool) (t : Text) : Option Decimal :=
  let (whole, rest) := Text.spanDigits t
  let (fraction, rest) := readFraction rest
  if whole.isEmpty && fraction.isEmpty then none
  else (exponent? rest).map fun e =>
    ⟨negative, Decimal.ofDigits (whole ++ fraction), e - fraction.length⟩

def signed? (t : Text) : Option Double :=
  let (negative, rest) := readSign t
  if rest = "Infinity" then some (.infinite negative)
  else (decimal? negative rest).map Decimal.toDouble

/-! ## Numerals -/

/-- The double that a text spells, if it is a numeral. -/
def read? (t : Text) : Option Double :=
  match t.trim with
  | [] => some .zero
  | 0x30 :: u :: rest =>
    match base? u with
    | some base => (inBase? base rest).map .ofNat
    | none => signed? (0x30 :: u :: rest)
  | t => signed? t

end Lifecycle.Numeral
