import Lifecycle.CommandLine.Grammar

/- Telling options from operands.

   The arguments are read from left to right. A known option takes the value that
   follows it or is joined to it; one-letter options may share a dash. From the first
   unknown option on, what is not a known option is kept apart, for the command it
   may belong to. Two dashes end the options. -/
namespace Lifecycle.CommandLine

/-- What the arguments hold: known options with their values, operands, and what follows the
    first unknown option. An option may lack its value. -/
structure Scanned where
  occurrences : List (Opt × Text)
  operands : List Text
  unknown : List Text
  incomplete : Option Opt

namespace Scanned

def empty : Scanned := ⟨[], [], [], none⟩

def option (o : Opt) (value : Text) (s : Scanned) : Scanned :=
  { s with occurrences := (o, value) :: s.occurrences }

def argument (apart : Bool) (arg : Text) (s : Scanned) : Scanned :=
  if apart then { s with unknown := arg :: s.unknown } else { s with operands := arg :: s.operands }

end Scanned

def looksLikeOption : Text → Bool
  | 0x2D :: _ :: _ => true
  | _ => false

def named? (options : List Opt) (arg : Text) : Option Opt :=
  if looksLikeOption arg then options.find? fun o => o.isNamed arg else none

/-- The first option of a group of letters behind one dash, and the letters after it. -/
def grouped? (options : List Opt) : Text → Option (Opt × Text)
  | 0x2D :: letter :: next :: rest =>
    if letter = 0x2D then none
    else (options.find? fun o => o.isNamed [0x2D, letter]).map fun o => (o, next :: rest)
  | _ => none

/-- A long name and the value that an equals sign joins to it. -/
def splitAssignment (arg : Text) : Option (Text × Text) :=
  match arg.dropWhile (· != Text.unit '=') with
  | _ :: value => some (arg.takeWhile (· != Text.unit '='), value)
  | [] => none

/-- A known option with its value joined to it. -/
def assigned? (options : List Opt) (arg : Text) : Option (Opt × Text) :=
  match splitAssignment arg with
  | some (0x2D :: 0x2D :: u :: name, value) =>
    (options.find? fun o => o.value.isSome && o.isNamed (0x2D :: 0x2D :: u :: name)).map
      fun o => (o, value)
  | _ => none

/-- Read arguments, at most as many steps as the fuel allows. -/
def scanWith (options : List Opt) : Nat → Bool → List Text → Scanned
  | 0, _, _ => .empty
  | _, _, [] => .empty
  | fuel + 1, apart, arg :: rest =>
    if arg = "--" then
      if apart then { Scanned.empty with unknown := arg :: rest }
      else { Scanned.empty with operands := rest }
    else
      match named? options arg, grouped? options arg, assigned? options arg with
      | some o, _, _ =>
        if o.value.isNone then (scanWith options fuel apart rest).option o []
        else
          match rest with
          | [] => { Scanned.empty with incomplete := some o }
          | value :: rest => (scanWith options fuel apart rest).option o value
      | none, some (o, letters), _ =>
        if o.value.isSome then (scanWith options fuel apart rest).option o letters
        else (scanWith options fuel apart ((0x2D :: letters) :: rest)).option o []
      | none, none, some (o, value) => (scanWith options fuel apart rest).option o value
      | none, none, none =>
        let apart := apart || looksLikeOption arg
        (scanWith options fuel apart rest).argument apart arg

/-- Read all arguments: every step takes an argument or a letter of one. -/
def scan (options : List Opt) (args : List Text) : Scanned :=
  scanWith options (args.flatten.length + args.length) false args

end Lifecycle.CommandLine
