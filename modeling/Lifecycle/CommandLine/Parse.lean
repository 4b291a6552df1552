import Lifecycle.CommandLine.Help
import Lifecycle.CommandLine.Scan
import Lifecycle.CommandLine.Suggestion

/- What the arguments ask for.

   The program looks for its own options in all arguments, then for the command. The
   command looks for its options in what is left. Help is given whenever it is asked
   for; otherwise the first thing that is wrong is reported. -/
namespace Lifecycle.CommandLine

/-- What is wrong with the arguments. -/
inductive UsageError where
  | unknownOption (arg : Text) (candidates : List Text)
  | unknownCommand (name : Text)
  | missingArgument (name : Text)
  | missingValue (option : Opt)
deriving DecidableEq

def UsageError.message : UsageError → Text
  | .unknownOption arg candidates =>
    "error: unknown option '" ++ arg ++ "'" ++
      (if arg.beginsWith "--" then suggestionLine arg candidates else [])
  | .unknownCommand name =>
    "error: unknown command '" ++ name ++ "'" ++
      suggestionLine name (commands.map Command.name ++ [helpCommand])
  | .missingArgument name => "error: missing required argument '" ++ name ++ "'"
  | .missingValue o => "error: option '" ++ o.written ++ "' argument missing"

/-- What is asked of a command. -/
inductive Job where
  | actions
  | validateEvent (path : Text)
  | invoke (action path : Text) (flags : Given) (verbosity : Nat)

/-- What the arguments come to: the version, a help page (which may be shown for want of a
    command), an error, or a job. -/
inductive Parsed where
  | version
  | help (page : HelpPage) (isError : Bool)
  | error (e : UsageError)
  | job (j : Job)

/-! ## Commands -/

def asksForHelp (args : List Text) : Bool := args.any helpOption.isNamed

/-- The first declared argument that has no operand. -/
def missing? (c : Command) (operands : List Text) : Option Text := c.arguments[operands.length]?

/-- The value of an option that was given last. -/
def lastValue? (occurrences : List (Opt × Text)) (o : Opt) : Option Text :=
  (occurrences.filter fun x => x.1 == o).getLast?.map (·.2)

/-- The job of a command with enough operands. -/
def jobOf (c : Command) (operands : List Text) (occurrences : List (Opt × Text)) : Job :=
  match c.name == invokeCommand.name, operands with
  | true, action :: path :: _ =>
    .invoke action path (fun f => lastValue? occurrences (fieldOption f))
      (occurrences.filter fun x => x.1 == verboseOption).length
  | false, path :: _ => if c.name = validateEventCommand.name then .validateEvent path else .actions
  | _, _ => .actions

/-- The long names that an unknown option of a command may have meant. -/
def optionNames (c : Command) : List Text :=
  c.options.map Opt.long ++ [helpOption.long, versionOption.long, helpOption.long]

/-- What a command makes of its operands and of what the program did not know. -/
def parseCommand (c : Command) (operands unknown : List Text) : Parsed :=
  let s := scan c.options unknown
  match s.incomplete with
  | some o => .error (.missingValue o)
  | none =>
    if asksForHelp s.unknown then .help c.page false
    else
      match s.unknown, missing? c (operands ++ s.operands) with
      | arg :: _, _ => .error (.unknownOption arg (optionNames c))
      | [], some name => .error (.missingArgument name)
      | [], none => .job (jobOf c (operands ++ s.operands) s.occurrences)

/-! ## The program -/

def parseHelp : List Text → Parsed
  | [] => .help programPage false
  | [] :: _ => .help programPage false
  | name :: _ =>
    match command? name with
    | some c => .help c.page false
    | none => .help programPage true

def parse (args : List Text) : Parsed :=
  let s := scan [versionOption] args
  if !s.occurrences.isEmpty then .version
  else
    match s.operands, s.unknown with
    | name :: operands, unknown =>
      match command? name with
      | some c => parseCommand c operands unknown
      | none =>
        if name = helpCommand then parseHelp operands
        else if asksForHelp unknown then .help programPage false
        else .error (.unknownCommand name)
    | [], [] => .help programPage true
    | [], arg :: rest =>
      if asksForHelp (arg :: rest) then .help programPage false
      else .error (.unknownOption arg [versionOption.long, helpOption.long])

end Lifecycle.CommandLine
