import Lifecycle.Text

/- Terminal styles.

   A style is a pair of escape sequences around a text. A style does not run across
   line breaks: it is closed before and opened again after each. Where the text
   itself resets the colour, the style is opened again too. -/
namespace Lifecycle

inductive Colour where
  | red
  | green
  | yellow
  | white
  | gray
deriving DecidableEq

namespace Colour

def opening : Colour → Text
  | .red => "\x1b[31m"
  | .green => "\x1b[32m"
  | .yellow => "\x1b[33m"
  | .white => "\x1b[37m"
  | .gray => "\x1b[90m"

def closing : Text := "\x1b[39m"

/-- Open a style again wherever the text resets the colour. -/
def reopen (opening : Text) : Text → Text
  | 0x1B :: 0x5B :: 0x33 :: 0x39 :: 0x6D :: rest => closing ++ opening ++ reopen opening rest
  | u :: rest => u :: reopen opening rest
  | [] => []

/-- Close a style before each line break and open it again behind. -/
def breakLines (opening : Text) : Text → Text
  | 0x0D :: 0x0A :: rest => closing ++ 0x0D :: 0x0A :: opening ++ breakLines opening rest
  | 0x0A :: rest => closing ++ 0x0A :: opening ++ breakLines opening rest
  | u :: rest => u :: breakLines opening rest
  | [] => []

/-- A text in a colour, on a terminal that has colours. -/
def paint (styled : Bool) (c : Colour) (t : Text) : Text :=
  if styled then c.opening ++ breakLines c.opening (reopen c.opening t) ++ closing else t

end Colour

end Lifecycle
