import Lifecycle.CommandLine.Grammar

/- Help pages.

   A page shows how a command is used, what it does, its options, and for the program
   its commands. Terms stand in one column, descriptions in a second one, which is
   broken between words if it is wide enough to be worth it. -/
namespace Lifecycle.CommandLine

/-- A term and what it means. -/
structure HelpItem where
  term : Text
  description : Text

structure HelpPage where
  usage : Text
  description : Text
  options : List HelpItem
  commands : List HelpItem

/-! ## Layout -/

def pageWidth : Nat := 80

/-- The least width of a column that is broken. -/
def leastColumn : Nat := 40

/-- Words set in lines of a width; a word that is too long has a line of its own. -/
def setWords (width : Nat) : Text → List Text → List Text
  | line, [] => [line]
  | line, word :: rest =>
    if line.length + 1 + word.length ≤ width then setWords width (line ++ " " ++ word) rest
    else line :: setWords width word rest

def columnLines (width : Nat) (description : Text) : List Text :=
  if width < leastColumn then [description]
  else
    match Text.splitAll (Text.unit ' ') description with
    | [] => []
    | word :: words => setWords (width - 1) word words

def blanks (n : Nat) : Text := List.replicate n (Text.unit ' ')

/-- An item: its term filled up to the first column, its description in the second. -/
def itemText (termWidth : Nat) (item : HelpItem) : Text :=
  "  " ++ item.term ++ blanks (termWidth - item.term.length) ++ "  " ++
    Text.join ("\n" ++ blanks (termWidth + 4))
      (columnLines (pageWidth - termWidth - 4) item.description)

/-- Items under a heading; without items there is nothing. -/
def sectionLines (termWidth : Nat) (heading : Text) : List HelpItem → List Text
  | [] => []
  | items => [heading] ++ items.map (itemText termWidth) ++ [[]]

def HelpPage.text (p : HelpPage) : Text :=
  let termWidth := (p.options ++ p.commands).foldl (fun w i => max w i.term.length) 0
  Text.join "\n" (["Usage: " ++ p.usage, [], p.description, []] ++
    sectionLines termWidth "Options:" p.options ++ sectionLines termWidth "Commands:" p.commands)

/-! ## Pages -/

def Opt.item (o : Opt) : HelpItem := ⟨o.written, o.description⟩

/-- The arguments of a command as they are written. -/
def Command.argumentText (c : Command) : Text := c.arguments.flatMap fun a => " <" ++ a ++ ">"

def Command.item (c : Command) : HelpItem where
  term := c.name ++ (if c.options.isEmpty then ([] : Text) else " [options]") ++ c.argumentText
  description := c.description

def Command.page (c : Command) : HelpPage where
  usage := programName ++ " " ++ c.name ++ " [options]" ++ c.argumentText
  description := c.description
  options := (c.options ++ [helpOption]).map Opt.item
  commands := []

def programPage : HelpPage where
  usage := programName ++ " [options] [command]"
  description := programDescription
  options := [versionOption, helpOption].map Opt.item
  commands := commands.map Command.item ++ [⟨helpCommand ++ " [command]", "display help for command"⟩]

end Lifecycle.CommandLine
