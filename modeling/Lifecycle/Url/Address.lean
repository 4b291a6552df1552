/- Numeric host addresses in URLs.

   A dotted address is one to four numbers, each decimal, octal after `0` or
   hexadecimal after `0x`; the last one fills the bytes that are left. A bracketed
   address is eight groups of hexadecimal digits, of which `::` stands for at least
   one that is zero; its last two groups may be written as four decimal bytes. -/
namespace Lifecycle.Url

/-! ## Lists of parts -/

/-- Cut at every occurrence of a character; the pieces do not hold it. -/
def splitAt (mark : Char) : List Char → List (List Char)
  | [] => [[]]
  | c :: rest =>
    match splitAt mark rest with
    | piece :: pieces => if c = mark then [] :: piece :: pieces else (c :: piece) :: pieces
    | [] => [[c]]

/-- The parts before and after the first occurrence of two equal characters in a row. -/
def splitPair (mark : Char) : List Char → Option (List Char × List Char)
  | a :: b :: rest =>
    if a = mark ∧ b = mark then some ([], rest)
    else (splitPair mark (b :: rest)).map fun (l, r) => (a :: l, r)
  | _ => none

/-! ## Dotted addresses -/

/-- The value of a digit of base sixteen, either case. -/
def digit? (c : Char) : Option Nat :=
  if c.isDigit then some (c.toNat - 0x30)
  else if 'a' ≤ c ∧ c ≤ 'f' then some (c.toNat - 0x57)
  else if 'A' ≤ c ∧ c ≤ 'F' then some (c.toNat - 0x37)
  else none

/-- The number that digits of a base spell; no digits are zero. -/
def inBase? (base : Nat) (cs : List Char) : Option Nat :=
  cs.foldlM (fun n c => (digit? c).bind fun d => if d < base then some (base * n + d) else none) 0

def part? : List Char → Option Nat
  | [] => none
  | '0' :: 'x' :: rest => inBase? 16 rest
  | '0' :: 'X' :: rest => inBase? 16 rest
  | ['0'] => some 0
  | '0' :: rest => inBase? 8 rest
  | cs => inBase? 10 cs

/-- The parts of a dotted host, without an empty last one behind a dot. -/
def dottedParts (host : List Char) : List (List Char) :=
  let parts := splitAt '.' host
  if parts.length > 1 ∧ parts.getLast? = some [] then parts.dropLast else parts

/-- Whether a host has to be a dotted address, because its last part is a number. -/
def endsInNumber (host : List Char) : Bool :=
  match (dottedParts host).getLast? with
  | none => false
  | some [] => false
  | some last => last.all Char.isDigit || (part? last).isSome

def isDotted (host : List Char) : Bool :=
  match (dottedParts host).mapM part? with
  | none => false
  | some ns => ns.length ≤ 4 && ns.dropLast.all (· ≤ 255) &&
      ns.getLast?.any (· < Nat.pow 256 (5 - ns.length))

/-! ## Bracketed addresses -/

def isByte (cs : List Char) : Bool :=
  match cs with
  | [] => false
  | ['0'] => true
  | '0' :: _ => false
  | cs => (inBase? 10 cs).any (· ≤ 255)

def isFourBytes (cs : List Char) : Bool :=
  let parts := splitAt '.' cs
  parts.length = 4 && parts.all isByte

def isGroup (cs : List Char) : Bool := 1 ≤ cs.length && cs.length ≤ 4 && cs.all fun c => (digit? c).isSome

/-- How many groups a list of parts makes up; four bytes count for the last two. -/
def countGroups (bytesAllowed : Bool) : List (List Char) → Option Nat
  | [] => some 0
  | [last] =>
    if isGroup last then some 1 else if bytesAllowed && isFourBytes last then some 2 else none
  | part :: rest => if isGroup part then (countGroups bytesAllowed rest).map (· + 1) else none

/-- How many groups one side of `::` makes up. -/
def sideGroups (bytesAllowed : Bool) (side : List Char) : Option Nat :=
  if side.isEmpty then some 0 else countGroups bytesAllowed (splitAt ':' side)

def isBracketed (inside : List Char) : Bool :=
  match splitPair ':' inside with
  | some (left, right) =>
    match sideGroups false left, sideGroups true right with
    | some l, some r => l + r ≤ 7
    | _, _ => false
  | none => countGroups true (splitAt ':' inside) == some 8

end Lifecycle.Url
