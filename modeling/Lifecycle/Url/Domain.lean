import Lifecycle.Text.Utf8
import Lifecycle.Url.Character
import Lifecycle.Url.Label

/- Host names in URLs.

   The host of a web URL is percent-decoded and brought into its ASCII form: wide
   letters and dots become plain ones, invisible marks vanish, and characters that
   no host name may hold make it invalid. A label in the ASCII spelling of other
   scripts has to spell what could stand there itself. A name whose last label is a
   number has to be a dotted address. The host of any other URL is taken as it is,
   without the marks that delimit the parts of a URL. -/
namespace Lifecycle.Url

/-! ## Percent encoding -/

/-- The bytes of a text with every `%` and two digits replaced by their byte. -/
def percentDecode : List Char → List UInt8
  | [] => []
  | '%' :: a :: b :: rest =>
    match digit? a, digit? b with
    | some x, some y => UInt8.ofNat (16 * x + y) :: percentDecode rest
    | _, _ => Utf8.encodeChar '%' ++ percentDecode (a :: b :: rest)
  | c :: rest => Utf8.encodeChar c ++ percentDecode rest

def decoded (host : List Char) : List Char := (Utf8.decodeFrom none (percentDecode host)).toChars

/-! ## Labels -/

/-- The last character of a label that is no mark on another one. -/
def lastBase? (label : List Char) : Option Char := (label.reverse.dropWhile isCombining).head?

/-- Whether a label is written in one direction. One that holds a letter of a script written from
    right to left begins with such a letter, ends with one or a digit, holds no other letters, and
    its digits are of one kind. -/
def isDirected (label : List Char) : Bool :=
  !label.any isLeftward ||
    (label.head?.any isLeftward && !label.any Char.isAlpha &&
      (lastBase? label).any (fun c => isLeftward c || c.isDigit) &&
      !(label.any Char.isDigit && label.any isLeftwardDigit))

/-- Whether a label may hold its characters and their order. -/
def isPlainLabel (label : List Char) : Bool :=
  !label.any isUnusable && !label.head?.any isCombining && isDirected label

/-- Whether a label is valid; a marked one must spell a label that needs the mark. -/
def isLabel (label : List Char) : Bool :=
  if Label.mark.isPrefixOf label then
    (Label.decode? (label.drop Label.mark.length)).any fun cs =>
      cs.any (0x80 ≤ ·.toNat) && cs.flatMap plainForm == cs && !cs.contains '.' &&
        !Label.mark.isPrefixOf cs && isPlainLabel cs
  else isPlainLabel label

/-! ## Hosts -/

/-- The plain form of a host name, if all its characters may be in one. -/
def domain? (host : List Char) : Option (List Char) :=
  let plain := (decoded host).flatMap plainForm
  if plain.isEmpty || plain.any isForbidden || !(splitAt '.' plain).all isLabel then none
  else some plain

/-- Whether the host of a web URL is valid. -/
def isWebHost : List Char → Bool
  | '[' :: rest => rest.getLast? == some ']' && isBracketed rest.dropLast
  | host =>
    match domain? host with
    | none => false
    | some name => !endsInNumber name || isDotted name

/-- Whether the host of any other URL is valid. -/
def isPlainHost : List Char → Bool
  | '[' :: rest => rest.getLast? == some ']' && isBracketed rest.dropLast
  | host => !host.any isDelimiter

end Lifecycle.Url
