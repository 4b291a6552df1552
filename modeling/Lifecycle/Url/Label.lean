import Lifecycle.Url.Address

/- The ASCII spelling of labels of other scripts.

   A label that starts with `xn--` spells one of other characters: first the plain
   ones, then, after the last hyphen, one number for each other character, which
   says how far to go on through all places and all code points. Numbers are written
   in base 36 with a threshold per digit that adapts to the numbers before. -/
namespace Lifecycle.Url.Label

/-! ## Numbers -/

def digit36? (c : Char) : Option Nat :=
  if c.isLower then some (c.toNat - 0x61)
  else if c.isDigit then some (c.toNat - 0x30 + 26)
  else none

/-- The threshold of a digit at a position, counted from one: a digit below it is the last. -/
def threshold (bias position : Nat) : Nat := min 26 (max 1 (36 * position - bias))

/-- A number at the start of the digits, and what follows it. -/
def number? (bias : Nat) : Nat → Nat → List Char → Option (Nat × List Char)
  | _, _, [] => none
  | position, weight, c :: rest =>
    (digit36? c).bind fun d =>
      if d < threshold bias position then some (d * weight, rest)
      else (number? bias (position + 1) (weight * (36 - threshold bias position)) rest).map
        fun (n, rest) => (d * weight + n, rest)

/-- How often a number has to be divided until it is small, and what it is then. -/
def reduce : Nat → Nat → Nat × Nat
  | 0, n => (0, n)
  | fuel + 1, n =>
    if 455 < n then
      let (count, n) := reduce fuel (n / 35)
      (count + 1, n)
    else (0, n)

/-- The bias after a number, given how many characters there are now. -/
def adapt (number count : Nat) (isFirst : Bool) : Nat :=
  let n := if isFirst then number / 700 else number / 2
  let (divisions, n) := reduce n (n + n / count)
  36 * divisions + 36 * n / (n + 38)

/-! ## Characters -/

/-- Insert the characters that numbers stand for, from a place and a code point on. -/
def insertAll : Nat → Nat → Nat → Nat → List Char → List Char → Option (List Char)
  | _, _, _, _, cs, [] => some cs
  | 0, _, _, _, _, _ :: _ => none
  | fuel + 1, bias, code, place, cs, digit :: digits =>
    match number? bias 1 1 (digit :: digits) with
    | none => none
    | some (n, rest) =>
      let count := cs.length + 1
      let code := code + (place + n) / count
      let next := (place + n) % count
      if code.isValidChar then
        insertAll fuel (adapt n count (place == 0)) code (next + 1)
          (cs.take next ++ Char.ofNat code :: cs.drop next) rest
      else none

/-- The mark of a label that spells characters of other scripts. -/
def mark : List Char := ['x', 'n', '-', '-']

/-- The characters of a label that the mark was taken from. -/
def decode? (cs : List Char) : Option (List Char) :=
  let digits := (cs.reverse.takeWhile (· != '-')).reverse
  insertAll digits.length 72 0x80 0 (cs.take (cs.length - digits.length - 1)) digits

end Lifecycle.Url.Label
