import Lifecycle.Report.Result
import Lifecycle.Report.Style

/- How results are shown.

   A mark and the message, then the details, the body as it is, the warnings and the
   suggestions, each block after an empty line. Successes go to the standard output,
   failures to the standard error stream. -/
namespace Lifecycle

namespace Output

def bullets (styled : Bool) (c : Colour) (items : List Text) : List Text :=
  items.map fun item => c.paint styled ("  • " ++ item)

/-- A block of bullet points under an optional heading; an empty list gives none. -/
def block (styled : Bool) (c : Colour) (heading : List Text) (items : Option (List Text)) :
    List Text :=
  match items with
  | none => []
  | some [] => []
  | some items => [] :: (heading.map (c.paint styled) ++ bullets styled c items)

def lines (styled isError : Bool) (o : Output) : List Text :=
  [if isError then Colour.paint styled .red ("❌ " ++ o.message)
    else Colour.paint styled .green ("✅ " ++ o.message)] ++
    block styled .white [] o.details ++
    (match o.body with
      | none => []
      | some [] => []
      | some body => [[], body]) ++
    block styled .yellow ["⚠️  Warnings:"] o.warnings ++
    block styled .gray ["💡 Suggestions:"] o.suggestions

def render (styled isError : Bool) (o : Output) : Text := Text.join [0x0A] (o.lines styled isError)

end Output

namespace CommandResult

/-- A result as it is shown; a success without output shows nothing. -/
def render (styled : Bool) : CommandResult → Text
  | .success none => []
  | .success (some o) => o.render styled false
  | .failure _ o => o.render styled true

end CommandResult

end Lifecycle
