import Lifecycle.Text
import Lifecycle.Number.Decimal

/- The shortest decimal text that reads back as a given double.

   Around a finite magnitude lies the interval of numbers that round to it, its
   ends included when the rank is even. The grids of one, two, three … digits are
   tried in turn, the two neighbours of the exact value on each: the first grid
   with a neighbour in the interval gives the digits, the nearer neighbour if both
   are in it. Between 10^-6 and 10^21 the digits are written positionally, outside
   with an exponent. -/
namespace Lifecycle.Double

/-! ## Digits -/

/-- Distance from zero in halves of a step, so that interval ends are whole. -/
def halves (rank : Nat) : Nat := 2 * units rank

def halvesPerOne : Nat := 2 * stepsPerOne

/-- The lower end of the interval that rounds to a magnitude. -/
def lowerEnd (rank : Nat) : Nat := units (rank - 1) + units rank

/-- The upper end of the interval that rounds to a magnitude. -/
def upperEnd (rank : Nat) : Nat := units rank + units (rank + 1)

/-- How many digits stand before the decimal point; zeros after it count below zero. -/
def pointPosition (rank : Nat) : Int :=
  (Decimal.digitCount (halves rank * Nat.pow 10 330 / halvesPerOne) : Int) - 330

/-- The better neighbour of a magnitude among the multiples of `10 ^ place`, as the multiple,
    provided it rounds to the magnitude. -/
def neighbour? (rank : Nat) (place : Int) : Option Nat :=
  let scale := halvesPerOne * Nat.pow 10 place.toNat
  let bound := Nat.pow 10 (-place).toNat
  let value := halves rank * bound
  let inside (c : Nat) : Bool :=
    if rank % 2 = 0 then lowerEnd rank * bound ≤ c * scale && c * scale ≤ upperEnd rank * bound
    else lowerEnd rank * bound < c * scale && c * scale < upperEnd rank * bound
  let low := value / scale
  let below := value - low * scale
  let above := (low + 1) * scale - value
  let preferLow := below < above || (below == above && low % 2 == 0)
  match inside low, inside (low + 1) with
  | true, true => some (if preferLow then low else low + 1)
  | true, false => some low
  | false, true => some (low + 1)
  | false, false => none

/-- The first grid, from the given number of digits on, that has a neighbour. -/
def firstGrid (rank : Nat) (position : Int) : Nat → Nat → Nat × Int
  | 0, digits =>
    (halves rank * Nat.pow 10 (digits - position).toNat / halvesPerOne, position - digits)
  | tries + 1, digits =>
    match neighbour? rank (position - digits) with
    | some c => (c, position - digits)
    | none => firstGrid rank position tries (digits + 1)

/-- The shortest decimal that rounds to a positive magnitude, as a coefficient and a place. -/
def shortest (rank : Nat) : Nat × Int := firstGrid rank (pointPosition rank) 17 1

/-- The significant digits of a magnitude and the position of the point among them. -/
def shortestDigits (rank : Nat) : List (Fin 10) × Int :=
  if rank = 0 then ([], 0)
  else
    let (coefficient, place) := shortest rank
    let ds := Decimal.digitsOf coefficient
    (Decimal.significant ds, ds.length + place)

/-! ## Layout -/

def digitText (ds : List (Fin 10)) : Text := ds.map Text.ofDigit

/-- Digits with the decimal point at the given position, in the form numbers are written. -/
def layout (ds : List (Fin 10)) (position : Int) : Text :=
  let count : Int := ds.length
  if ds.isEmpty then "0"
  else if count ≤ position ∧ position ≤ 21 then
    digitText ds ++ List.replicate (position - count).toNat (Text.unit '0')
  else if 0 < position ∧ position ≤ 21 then
    digitText (ds.take position.toNat) ++ Text.unit '.' :: digitText (ds.drop position.toNat)
  else if -6 < position ∧ position ≤ 0 then
    "0." ++ List.replicate (-position).toNat (Text.unit '0') ++ digitText ds
  else
    let mantissa : Text := match ds with
      | [d] => [Text.ofDigit d]
      | d :: rest => Text.ofDigit d :: Text.unit '.' :: digitText rest
      | [] => []
    let exponent := position - 1
    mantissa ++ "e" ++ (if 0 ≤ exponent then ("+" : Text) else []) ++ Text.ofInt exponent

/-- A number as text; negative zero is written like zero. -/
def toText : Double → Text
  | .nan => "NaN"
  | .infinite false => "Infinity"
  | .infinite true => "-Infinity"
  | .finite negative rank =>
    let (ds, position) := shortestDigits rank.val
    if negative && rank.val != 0 then Text.unit '-' :: layout ds position else layout ds position

/-- A number as text, with the sign of a negative zero. -/
def toSignedText (x : Double) : Text := if x.isNegativeZero then "-0" else x.toText

end Lifecycle.Double
