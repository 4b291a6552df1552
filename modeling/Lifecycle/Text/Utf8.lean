import Lifecycle.Text

/- UTF-8, the byte form of request and response bodies.

   Encoding writes U+FFFD for a half of a surrogate pair. Decoding never fails:
   every maximal part of an ill-formed sequence becomes one U+FFFD, and one
   leading byte order mark is dropped. -/
namespace Lifecycle.Utf8

def encodeChar (c : Char) : List UInt8 :=
  let n := c.toNat
  if n < 0x80 then [UInt8.ofNat n]
  else if n < 0x800 then [UInt8.ofNat (0xC0 + n / 0x40), UInt8.ofNat (0x80 + n % 0x40)]
  else if n < 0x10000 then
    [UInt8.ofNat (0xE0 + n / 0x1000), UInt8.ofNat (0x80 + n / 0x40 % 0x40),
      UInt8.ofNat (0x80 + n % 0x40)]
  else
    [UInt8.ofNat (0xF0 + n / 0x40000), UInt8.ofNat (0x80 + n / 0x1000 % 0x40),
      UInt8.ofNat (0x80 + n / 0x40 % 0x40), UInt8.ofNat (0x80 + n % 0x40)]

def encode (t : Text) : List UInt8 := t.toChars.flatMap encodeChar

/-- A sequence begun: its value so far, the bytes still due, and the bounds of the next one. -/
structure Pending where
  value : Nat
  due : Nat
  least : Nat
  greatest : Nat

def replacement : UInt16 := 0xFFFD

/-- A byte at the start of a sequence: text to emit, and the sequence it begins. -/
def begin (b : UInt8) : Text × Option Pending :=
  let n := b.toNat
  if n < 0x80 then ([UInt16.ofNat n], none)
  else if 0xC2 ≤ n ∧ n ≤ 0xDF then ([], some ⟨n - 0xC0, 1, 0x80, 0xBF⟩)
  else if 0xE0 ≤ n ∧ n ≤ 0xEF then
    ([], some ⟨n - 0xE0, 2, if n = 0xE0 then 0xA0 else 0x80, if n = 0xED then 0x9F else 0xBF⟩)
  else if 0xF0 ≤ n ∧ n ≤ 0xF4 then
    ([], some ⟨n - 0xF0, 3, if n = 0xF0 then 0x90 else 0x80, if n = 0xF4 then 0x8F else 0xBF⟩)
  else ([replacement], none)

/-- Decode with a sequence possibly begun. -/
def decodeFrom : Option Pending → List UInt8 → Text
  | none, [] => []
  | some _, [] => [replacement]
  | none, b :: bs => (begin b).1 ++ decodeFrom (begin b).2 bs
  | some p, b :: bs =>
    if p.least ≤ b.toNat ∧ b.toNat ≤ p.greatest then
      let value := p.value * 0x40 + (b.toNat - 0x80)
      if p.due = 1 then Text.ofChar (Char.ofNat value) ++ decodeFrom none bs
      else decodeFrom (some ⟨value, p.due - 1, 0x80, 0xBF⟩) bs
    else replacement :: ((begin b).1 ++ decodeFrom (begin b).2 bs)

/-- The text of a body: one leading byte order mark is no part of it. -/
def decode (bytes : List UInt8) : Text :=
  match decodeFrom none bytes with
  | 0xFEFF :: t => t
  | t => t

end Lifecycle.Utf8
