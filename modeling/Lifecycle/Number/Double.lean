/- Binary floating-point numbers of 64 bits, as exact values.

   A magnitude is a point of a grid of natural numbers: the non-negative finite
   magnitudes in ascending order, so a rank is all there is to one. The point of
   rank `k` lies `units k` steps of 2^-1074 above zero. Every operation computes
   the exact result and takes the nearest point, a tie going to the even rank;
   what lies half a step beyond the last point is infinite. -/
namespace Lifecycle

/-- How many magnitudes lie between two powers of two. -/
def binade : Nat := Nat.pow 2 52

/-- One more than the greatest finite rank. -/
def finiteRanks : Nat := 2047 * binade

/-- A double: not a number, an infinity, or a sign and the rank of a finite magnitude. -/
inductive Double where
  | nan
  | infinite (negative : Bool)
  | finite (negative : Bool) (rank : Fin finiteRanks)
deriving DecidableEq

namespace Double

/-! ## The grid -/

/-- How many steps of 2^-1074 make one. -/
def stepsPerOne : Nat := Nat.pow 2 1074

/-- The distance from zero of a grid point, in steps of 2^-1074. -/
def units (rank : Nat) : Nat :=
  if rank < 2 * binade then rank
  else (binade + rank % binade) * Nat.pow 2 (rank / binade - 1)

/-- The quotient to the nearest whole number, a tie going to the even one. -/
def roundHalfEven (num den : Nat) : Nat :=
  let q := num / den
  let r := num % den
  if 2 * r < den then q else if den < 2 * r then q + 1 else q + q % 2

/-- The rank of the grid point nearest to `num / den` steps of 2^-1074. -/
def nearestRank (num den : Nat) : Nat :=
  let shift := Nat.log2 (num / den) - 52
  shift * binade + roundHalfEven num (den * Nat.pow 2 shift)

/-- The double of a sign and a rank; ranks past the last finite one are infinite. -/
def ofRank (negative : Bool) (rank : Nat) : Double :=
  if h : rank < finiteRanks then .finite negative ⟨rank, h⟩ else .infinite negative

/-- The double nearest to a signed fraction of steps. -/
def ofSteps (negative : Bool) (num den : Nat) : Double := ofRank negative (nearestRank num den)

def ofNat (n : Nat) : Double := ofSteps false (n * stepsPerOne) 1

def ofInt (n : Int) : Double := ofSteps (n < 0) (n.natAbs * stepsPerOne) 1

def zero : Double := ofRank false 0

def one : Double := ofNat 1

instance : Inhabited Double := ⟨zero⟩

/-! ## Reading a double -/

/-- The signed distance from zero in steps of 2^-1074, for finite numbers. -/
def steps? : Double → Option Int
  | .finite negative rank =>
    some (if negative then -(units rank.val : Int) else (units rank.val : Int))
  | _ => none

def isFinite : Double → Bool
  | .finite .. => true
  | _ => false

def isInteger (x : Double) : Bool :=
  match x.steps? with
  | some s => s % stepsPerOne == 0
  | none => false

/-- The integer a double is, if it is one. -/
def toInt? (x : Double) : Option Int :=
  match x.steps? with
  | some s => if s % stepsPerOne = 0 then some (s / stepsPerOne) else none
  | none => none

/-- Negative zero, which prints like zero and is told from it by its sign alone. -/
def isNegativeZero : Double → Bool
  | .finite true rank => rank.val == 0
  | _ => false

/-! ## Order -/

/-- The order of numbers; nothing compares with a NaN, and the two zeros are equal. -/
def le : Double → Double → Bool
  | .nan, _ => false
  | _, .nan => false
  | .infinite true, _ => true
  | _, .infinite false => true
  | .infinite false, .finite .. => false
  | .infinite false, .infinite true => false
  | .finite .., .infinite true => false
  | x@(.finite ..), y@(.finite ..) =>
    match x.steps?, y.steps? with
    | some a, some b => a ≤ b
    | _, _ => false

def lt (x y : Double) : Bool := le x y && !le y x

/-- Equal in the order of numbers: the zeros are equal and a NaN equals nothing. -/
def same (x y : Double) : Bool := le x y && le y x

/-- Whether a whole number is at most a given number; none is at most a NaN. -/
def reaches (x : Double) (n : Int) : Bool :=
  match x with
  | .nan => false
  | .infinite negative => !negative
  | .finite negative rank => n * stepsPerOne ≤ if negative then -(units rank.val : Int) else units rank.val

/-- The smaller number; a NaN if either is one. -/
def min : Double → Double → Double
  | .nan, _ => .nan
  | _, .nan => .nan
  | x, y => if lt y x then y else x

/-! ## Arithmetic -/

/-- Multiply by a positive natural number. -/
def scale (k : Nat) : Double → Double
  | .finite negative rank => ofSteps negative (units rank.val * k) 1
  | x => x

/-- The sum of two numbers; a sum of zeros is not negative. -/
def add : Double → Double → Double
  | .nan, _ => .nan
  | _, .nan => .nan
  | .infinite true, .infinite false => .nan
  | .infinite false, .infinite true => .nan
  | .infinite n, _ => .infinite n
  | _, .infinite n => .infinite n
  | x@(.finite ..), y@(.finite ..) =>
    match x.steps?, y.steps? with
    | some a, some b => ofSteps (a + b < 0) (a + b).natAbs 1
    | _, _ => .nan

/-- The difference of two numbers; a difference of zeros is not negative. -/
def sub : Double → Double → Double
  | .nan, _ => .nan
  | _, .nan => .nan
  | .infinite true, .infinite true => .nan
  | .infinite false, .infinite false => .nan
  | .infinite n, _ => .infinite n
  | _, .infinite n => .infinite (!n)
  | x@(.finite ..), y@(.finite ..) =>
    match x.steps?, y.steps? with
    | some a, some b => ofSteps (a - b < 0) (a - b).natAbs 1
    | _, _ => .nan

end Double

end Lifecycle
