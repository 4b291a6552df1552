/- Text as the sequence of its 16-bit units.

   JSON escapes can write half of a surrogate pair, so a text is not always a
   sequence of characters; a list of units holds every text a handler can send.
   This file holds the type, the texts of characters and whole numbers, blank
   space, and the small list operations the rest of the library shares. -/
namespace Lifecycle

/-- A text: its UTF-16 units in order, halves of surrogate pairs included. -/
abbrev Text := List UInt16

namespace Text

/-- The units of one character: itself, or its surrogate pair beyond the basic plane. -/
def ofChar (c : Char) : Text :=
  if c.toNat < 0x10000 then [UInt16.ofNat c.toNat]
  else [UInt16.ofNat (0xD7C0 + c.toNat / 0x400), UInt16.ofNat (0xDC00 + c.toNat % 0x400)]

def ofString (s : String) : Text := s.toList.flatMap ofChar

instance : Coe String Text := ⟨ofString⟩

def unit (c : Char) : UInt16 := UInt16.ofNat c.toNat

/-- The characters of a text; a half of a surrogate pair on its own becomes U+FFFD. -/
def toChars : Text → List Char
  | [] => []
  | u :: rest =>
    if 0xD800 ≤ u && u < 0xDC00 then
      match rest with
      | v :: rest' =>
        if 0xDC00 ≤ v && v < 0xE000 then
          Char.ofNat ((u.toNat - 0xD7C0) * 0x400 + (v.toNat - 0xDC00)) :: toChars rest'
        else Char.ofNat 0xFFFD :: toChars (v :: rest')
      | [] => [Char.ofNat 0xFFFD]
    else if 0xDC00 ≤ u && u < 0xE000 then Char.ofNat 0xFFFD :: toChars rest
    else Char.ofNat u.toNat :: toChars rest

def toString (t : Text) : String := String.ofList (toChars t)

/-! ## Whole numbers -/

def ofNat (n : Nat) : Text := (Nat.toDigits 10 n).flatMap ofChar

/-- An integer in decimal, with a minus sign below zero. -/
def ofInt (n : Int) : Text :=
  if n < 0 then unit '-' :: ofNat n.natAbs else ofNat n.natAbs

def digit? (u : UInt16) : Option (Fin 10) :=
  if h : 0x30 ≤ u.toNat ∧ u.toNat < 0x3A then some ⟨u.toNat - 0x30, by omega⟩ else none

/-- The leading ASCII digits of a text and what follows them. -/
def spanDigits : Text → List (Fin 10) × Text
  | [] => ([], [])
  | u :: rest =>
    match digit? u with
    | some d => let r := spanDigits rest; (d :: r.1, r.2)
    | none => ([], u :: rest)

def ofDigit (d : Fin 10) : UInt16 := UInt16.ofNat (0x30 + d.val)

/-- The value of an ASCII digit of base sixteen, either case. -/
def hexDigit? (u : UInt16) : Option Nat :=
  let n := u.toNat
  if 0x30 ≤ n ∧ n < 0x3A then some (n - 0x30)
  else if 0x41 ≤ n ∧ n < 0x47 then some (n - 0x37)
  else if 0x61 ≤ n ∧ n < 0x67 then some (n - 0x57)
  else none

/-! ## Blank space and case -/

/-- Unicode white space and line ends, the byte order mark among them. -/
def isBlank (u : UInt16) : Bool :=
  let n := u.toNat
  (0x09 ≤ n && n ≤ 0x0D) || n == 0x20 || n == 0xA0 || n == 0x1680 || (0x2000 ≤ n && n ≤ 0x200A) ||
    n == 0x2028 || n == 0x2029 || n == 0x202F || n == 0x205F || n == 0x3000 || n == 0xFEFF

def trim (t : Text) : Text :=
  ((t.dropWhile isBlank).reverse.dropWhile isBlank).reverse

/-- ASCII letters in lower case, every other unit as it is. -/
def toLower (t : Text) : Text :=
  t.map fun u => if 0x41 ≤ u && u ≤ 0x5A then u + 0x20 else u

/-! ## Lists of texts -/

/-- The texts one after the other, with a separator between neighbours. -/
def join (separator : Text) : List Text → Text
  | [] => []
  | [t] => t
  | t :: rest => t ++ separator ++ join separator rest

/-- The rest of a text after the given beginning. -/
def after? : Text → Text → Option Text
  | [], t => some t
  | _ :: _, [] => none
  | b :: bs, u :: t => if b = u then after? bs t else none

def beginsWith (t beginning : Text) : Bool := (after? beginning t).isSome

/-- Cut at every occurrence of a unit; the pieces do not hold it. -/
def splitAll (mark : UInt16) : Text → List Text
  | [] => [[]]
  | u :: rest =>
    match splitAll mark rest with
    | piece :: pieces => if u = mark then [] :: piece :: pieces else (u :: piece) :: pieces
    | [] => [[u]]

end Text

end Lifecycle
