import Lifecycle.Url.Address
import Lifecycle.Url.Combining
import Lifecycle.Url.Unusable

/- The characters of host names.

   What a character stands for in the ASCII form of a name, and which characters no
   name may hold. Both follow the tables for internationalized domain names, as far
   as they tell valid names from others: letters that only change their looks or
   their case are left alone. -/
namespace Lifecycle.Url

/-- Whether a number lies in one of some ranges. -/
def isIn (ranges : List (Nat × Nat)) (n : Nat) : Bool := ranges.any fun r => r.1 ≤ n && n ≤ r.2

/-! ## Forbidden characters -/

/-- Marks that delimit the parts of a URL, and blanks. -/
def isDelimiter (c : Char) : Bool :=
  c ∈ [Char.ofNat 0, '\t', '\n', '\r', ' ', '#', '/', ':', '<', '>', '?', '@', '[', '\\', ']', '^', '|']

/-- What no host name may hold, after it is brought into ASCII form. -/
def isForbidden (c : Char) : Bool :=
  isDelimiter c || c.toNat < 0x20 || c == '%' || c.toNat == 0x7F

/-! ## Plain forms -/

/-- Marks without a shape of their own, which vanish from a host name. -/
def invisible : List (Nat × Nat) :=
  [(0xAD, 0xAD), (0x34F, 0x34F), (0x180B, 0x180D), (0x180F, 0x180F), (0x200B, 0x200B), (0x2060, 0x2060),
    (0x2064, 0x2064), (0xFE00, 0xFE0F), (0xFEFF, 0xFEFF), (0x1BCA0, 0x1BCA3), (0xE0100, 0xE01EF)]

/-- Full stops of other scripts. -/
def stops : List (Nat × Nat) := [(0x3002, 0x3002), (0xFF0E, 0xFF0E), (0xFF61, 0xFF61)]

/-- Characters whose plain form holds a blank or a delimiter: blanks, accents on a blank, and
    ligatures and small forms of delimiters. -/
def delimiting : List (Nat × Nat) :=
  [(0xA0, 0xA0), (0xA8, 0xA8), (0xAF, 0xAF), (0xB4, 0xB4), (0xB8, 0xB8), (0x2D8, 0x2DD), (0x37A, 0x37A),
    (0x384, 0x385), (0x1FBD, 0x1FBD), (0x1FBF, 0x1FC1), (0x1FCD, 0x1FCF), (0x1FDD, 0x1FDF),
    (0x1FED, 0x1FEE), (0x1FFD, 0x1FFE), (0x2000, 0x200A), (0x2017, 0x2017), (0x202F, 0x202F),
    (0x203E, 0x203E), (0x2047, 0x2049), (0x205F, 0x205F), (0x2100, 0x2101), (0x2105, 0x2106),
    (0x2A74, 0x2A74), (0x3000, 0x3000), (0x309B, 0x309C), (0xFC5E, 0xFC63), (0xFDFA, 0xFDFB),
    (0xFE13, 0xFE13), (0xFE16, 0xFE16), (0xFE47, 0xFE4C), (0xFE55, 0xFE56), (0xFE5F, 0xFE5F),
    (0xFE64, 0xFE65), (0xFE68, 0xFE68), (0xFE6A, 0xFE6B), (0xFE70, 0xFE70), (0xFE72, 0xFE72),
    (0xFE74, 0xFE74), (0xFE76, 0xFE76), (0xFE78, 0xFE78), (0xFE7A, 0xFE7A), (0xFE7C, 0xFE7C),
    (0xFE7E, 0xFE7E), (0xFFE3, 0xFFE3)]

/-- Raised, lowered, circled and styled numbers: ranges of them, and the number of the first. -/
def styledNumbers : List (Nat × Nat × Nat) :=
  [(0xB2, 0xB3, 2), (0xB9, 0xB9, 1), (0x2070, 0x2070, 0), (0x2074, 0x2079, 4), (0x2080, 0x2089, 0),
    (0x2460, 0x2473, 1), (0x24EA, 0x24EA, 0), (0x3251, 0x325F, 21), (0x32B1, 0x32BF, 36),
    (0x1D7CE, 0x1D7D7, 0), (0x1D7D8, 0x1D7E1, 0), (0x1D7E2, 0x1D7EB, 0), (0x1D7EC, 0x1D7F5, 0),
    (0x1D7F6, 0x1D7FF, 0), (0x1FBF0, 0x1FBF9, 0)]

/-- The number that a character shows in another style. -/
def styledNumber? (n : Nat) : Option Nat :=
  (styledNumbers.find? fun r => r.1 ≤ n && n ≤ r.2.1).map fun r => r.2.2 + (n - r.1)

/-- The characters that a character of a host name stands for. -/
def plainForm (c : Char) : List Char :=
  let n := c.toNat
  if n < 0x80 then [c.toLower]
  else if isIn invisible n then []
  else if isIn stops n then ['.']
  else if isIn delimiting n then [' ']
  else if 0xFF01 ≤ n && n ≤ 0xFF5E then [(Char.ofNat (n - 0xFEE0)).toLower]
  else match styledNumber? n with
    | some k => Nat.toDigits 10 k
    | none => [c]

/-! ## Unusable characters -/

/-- Invisible marks that join or part letters, which need a neighbour to be usable. -/
def isJoiner (c : Char) : Bool := c.toNat == 0x200C || c.toNat == 0x200D

/-- Whether a character is never part of a host name. -/
def isUnusable (c : Char) : Bool := 0x80 ≤ c.toNat && (isIn unusable c.toNat || isJoiner c)

/-! ## Marks and directions -/

/-- Whether a character combines with the one before it, and so begins no part of a name. -/
def isCombining (c : Char) : Bool := isIn combining c.toNat

/-- Letters of the scripts that are written from right to left. -/
def leftward : List (Nat × Nat) :=
  [(0x5BE, 0x5BE), (0x5C0, 0x5C0), (0x5C3, 0x5C3), (0x5C6, 0x5C6), (0x5D0, 0x5F4), (0x608, 0x608),
    (0x60B, 0x60B), (0x60D, 0x60D), (0x61B, 0x64A), (0x66D, 0x66F), (0x671, 0x6D5), (0x6E5, 0x6E6),
    (0x6EE, 0x6EF), (0x6FA, 0x710), (0x712, 0x72F), (0x74D, 0x7A5), (0x7B1, 0x7EA), (0x7F4, 0x7F5),
    (0x7FA, 0x7FA), (0x7FE, 0x815), (0x81A, 0x81A), (0x824, 0x824), (0x828, 0x828), (0x830, 0x858),
    (0x85E, 0x88E), (0x8A0, 0x8C9), (0xFB1D, 0xFB1D), (0xFB1F, 0xFB28), (0xFB2A, 0xFD3D),
    (0xFD50, 0xFDC7), (0xFDF0, 0xFDFC), (0xFE70, 0xFEFC), (0x10800, 0x1091B), (0x10920, 0x10A00),
    (0x10A10, 0x10A35), (0x10A40, 0x10AE4), (0x10AEB, 0x10B35), (0x10B40, 0x10D23),
    (0x10E80, 0x10EA9), (0x10EAD, 0x10EB1), (0x10F00, 0x10F45), (0x10F51, 0x10F81),
    (0x10F86, 0x10FF6), (0x1E800, 0x1E8CF), (0x1E900, 0x1E943), (0x1E94B, 0x1EEBB)]

/-- Digits that go with those scripts alone. -/
def leftwardDigits : List (Nat × Nat) := [(0x660, 0x669), (0x66B, 0x66C), (0x10D30, 0x10E7E)]

/-- Whether a character is a digit that goes with a script written from right to left. -/
def isLeftwardDigit (c : Char) : Bool := isIn leftwardDigits c.toNat

/-- Whether a character belongs to a script that is written from right to left. -/
def isLeftward (c : Char) : Bool := isIn leftward c.toNat || isLeftwardDigit c

end Lifecycle.Url
