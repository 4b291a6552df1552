import Lifecycle.Request

/- Bearer tokens as universally unique identifiers of version 4.

   Such an identifier is 36 units long: five groups of lower-case hexadecimal digits.
   One digit is the version and two bits are fixed; the other 122 bits are free, and
   different bits give different identifiers. -/
namespace Lifecycle.Uuid

/-- The digits of a number in base sixteen, of a fixed count, the last digit first. -/
def lowDigits : Nat → Nat → List Nat
  | 0, _ => []
  | count + 1, n => n % 16 :: lowDigits count (n / 16)

def digit (n : Nat) : UInt16 := UInt16.ofNat (if n < 10 then 0x30 + n else 0x57 + n)

/-- A group of digits, written with the last digit last. -/
def group (count n : Nat) : Text := ((lowDigits count n).reverse).map digit

def dropBits (count n : Nat) : Nat := n / Nat.pow 2 count

/-- The identifier whose free bits are those of a number. -/
def ofNat (n : Nat) : Text :=
  group 8 n ++ "-" ++ group 4 (dropBits 32 n) ++ "-4" ++ group 3 (dropBits 48 n) ++ "-" ++
    group 1 (8 + dropBits 60 n % 4) ++ group 3 (dropBits 62 n) ++ "-" ++ group 12 (dropBits 74 n)

/-- A lower-case hexadecimal digit, either decimal or a letter. -/
def isDigit (u : UInt16) : Bool := (0x30 ≤ u && u ≤ 0x39) || (0x61 ≤ u && u ≤ 0x66)

/-- Whether a text is a lower-case identifier of version 4. -/
def isWellFormed (t : Text) : Bool :=
  match Text.splitAll (Text.unit '-') t with
  | [a, b, c, d, e] =>
    [a, b, c, d, e].all (fun part => part.all isDigit) &&
      (a.length == 8 && b.length == 4 && c.length == 4 && d.length == 4 && e.length == 12) &&
      c.head? == some (Text.unit '4') &&
      d.head?.any fun u => [Text.unit '8', Text.unit '9', Text.unit 'a', Text.unit 'b'].contains u
  | _ => false

/-- Tokens from a sequence of free bits. -/
def source (bits : Nat → Nat) : TokenSource := ⟨fun n => ofNat (bits n), 0⟩

end Lifecycle.Uuid
