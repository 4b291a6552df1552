import Lifecycle.Url.Domain

/- Which texts are absolute URLs.

   A URL has a scheme, and whether the rest may be anything depends on it: a web
   scheme needs a host, a file may have one, any other scheme has one only after
   `//`. The path, the query and the fragment are never the reason to refuse a URL.
   Controls and blanks at both ends do not count, nor tabs and line breaks anywhere. -/
namespace Lifecycle.Url

/-- The characters of a text that count. -/
def cleaned (t : Text) : List Char :=
  let edge (c : Char) : Bool := c.toNat ≤ 0x20
  (((t.toChars.dropWhile edge).reverse.dropWhile edge).reverse).filter fun c =>
    c != '\t' && c != '\n' && c != '\r'

/-! ## Schemes -/

/-- A character of a scheme after the first, which is a letter. -/
def isSchemeChar (c : Char) : Bool := c.isAlphanum || c == '+' || c == '-' || c == '.'

/-- The scheme of a URL in lower case, and what follows its colon. -/
def scheme? (cs : List Char) : Option (List Char × List Char) :=
  let scheme := cs.takeWhile isSchemeChar
  match scheme, cs.dropWhile isSchemeChar with
  | c :: _, ':' :: rest => if c.isAlpha then some (scheme.map Char.toLower, rest) else none
  | _, _ => none

/-- The schemes whose URLs need a host. -/
def webSchemes : List (List Char) :=
  [['h', 't', 't', 'p'], ['h', 't', 't', 'p', 's'], ['w', 's'], ['w', 's', 's'], ['f', 't', 'p']]

/-- Slashes of either kind, which a web URL may mix. -/
def isSlash (c : Char) : Bool := c == '/' || c == '\\'

/-! ## Hosts and their numbers -/

/-- What follows the last occurrence of a character, if it occurs. -/
def afterLast? (mark : Char) : List Char → Option (List Char)
  | [] => none
  | c :: rest =>
    match afterLast? mark rest with
    | some tail => some tail
    | none => if c = mark then some rest else none

/-- The host and, if a colon outside of brackets ends it, what follows the colon. -/
def splitHost (inside : Bool) : List Char → List Char × Option (List Char)
  | [] => ([], none)
  | c :: rest =>
    if c = ':' ∧ inside = false then ([], some rest)
    else
      let r := splitHost (if c = '[' then true else if c = ']' then false else inside) rest
      (c :: r.1, r.2)

/-- The number of a host has sixteen bits; it may be left out after its colon. -/
def isHostNumber (cs : List Char) : Bool := cs.all Char.isDigit && (inBase? 10 cs).any (· ≤ 65535)

def isNumberedHost (web : Bool) (cs : List Char) : Bool :=
  let (host, number) := splitHost false cs
  if host.isEmpty then !web && number.isNone
  else (if web then isWebHost host else isPlainHost host) && number.all isHostNumber

/-- Whether what stands between the slashes and the path is valid: credentials, host and number. -/
def isAuthority (web : Bool) (cs : List Char) : Bool :=
  match afterLast? '@' cs with
  | some [] => false
  | some rest => isNumberedHost web rest
  | none => isNumberedHost web cs

/-- What stands before the path, the query or the fragment. -/
def beforePath (web : Bool) (cs : List Char) : List Char :=
  cs.takeWhile fun c => !(c == '/' || c == '?' || c == '#' || (web && c == '\\'))

/-- A drive letter, which is no host. -/
def isDrive : List Char → Bool
  | [c, mark] => c.isAlpha && (mark == ':' || mark == '|')
  | _ => false

/-- Whether the host of a file, if there is one, is valid. -/
def isFile : List Char → Bool
  | a :: b :: rest =>
    if isSlash a && isSlash b then
      let host := beforePath true rest
      host.isEmpty || isDrive host || isWebHost host
    else true
  | _ => true

/-! ## URLs -/

def isAbsolute (t : Text) : Bool :=
  match scheme? (cleaned t) with
  | none => false
  | some (scheme, rest) =>
    if scheme = ['f', 'i', 'l', 'e'] then isFile rest
    else if webSchemes.contains scheme then
      isAuthority true (beforePath true (rest.dropWhile isSlash))
    else
      match rest with
      | '/' :: '/' :: rest => isAuthority false (beforePath false rest)
      | _ => true

end Lifecycle.Url
