import Lifecycle.Number.Double

/- Decimal numbers: a sign, a whole coefficient and a power of ten.

   `toDouble` is the double nearest to one, for coefficients and exponents of any
   size: an exponent far outside the range of doubles is recognised by the number
   of digits, before a power of ten is computed. -/
namespace Lifecycle

/-- The number (-1)^negative * coefficient * 10^exponent. -/
structure Decimal where
  negative : Bool
  coefficient : Nat
  exponent : Int
deriving DecidableEq

namespace Decimal

def ofDigits (ds : List (Fin 10)) : Nat := ds.foldl (fun n d => 10 * n + d.val) 0

/-- The decimal digits of a natural number, most significant first; zero has one. -/
def digitsOf (n : Nat) : List (Fin 10) :=
  (Nat.toDigits 10 n).map fun c => Fin.ofNat 10 (c.toNat - 0x30)

def digitCount (n : Nat) : Nat := (Nat.toDigits 10 n).length

/-- The digits between the zeros at both ends. -/
def significant (ds : List (Fin 10)) : List (Fin 10) :=
  ((ds.dropWhile (· == 0)).reverse.dropWhile (· == 0)).reverse

def toDouble (d : Decimal) : Double :=
  if d.coefficient = 0 then .ofRank d.negative 0
  else
    let magnitude := (digitCount d.coefficient : Int) + d.exponent
    if magnitude < -330 then .ofRank d.negative 0
    else if 330 < magnitude then .infinite d.negative
    else if 0 ≤ d.exponent then
      .ofSteps d.negative (d.coefficient * Nat.pow 10 d.exponent.toNat * Double.stepsPerOne) 1
    else .ofSteps d.negative (d.coefficient * Double.stepsPerOne) (Nat.pow 10 (-d.exponent).toNat)

end Decimal

end Lifecycle
