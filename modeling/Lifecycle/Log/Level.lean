import Lifecycle.Text

/- Log levels, from the most talkative to none at all. -/
namespace Lifecycle

/-- How grave an entry is, or how much a logger writes. -/
inductive Level where
  | trace
  | debug
  | info
  | warn
  | error
  | fatal
  | silent
deriving DecidableEq

namespace Level

def all : List Level := [.trace, .debug, .info, .warn, .error, .fatal, .silent]

def name : Level → Text
  | .trace => "trace"
  | .debug => "debug"
  | .info => "info"
  | .warn => "warn"
  | .error => "error"
  | .fatal => "fatal"
  | .silent => "silent"

def rank : Level → Nat
  | .trace => 0
  | .debug => 1
  | .info => 2
  | .warn => 3
  | .error => 4
  | .fatal => 5
  | .silent => 6

/-- The number of a level in a log line. -/
def number (l : Level) : Nat := 10 * (l.rank + 1)

/-- The level of a name spelled exactly. -/
def ofExactName? (t : Text) : Option Level := all.find? fun l => l.name == t

/-- The level of a name in any case of letters. -/
def ofName? (t : Text) : Option Level := ofExactName? t.toLower

/-- Whether a logger at a level writes entries of another. -/
def writes (logger entry : Level) : Bool := entry != .silent && logger.rank ≤ entry.rank

/-- The level that a number of verbosity flags asks for; it never quietens a logger. -/
def forVerbosity (count : Nat) (current : Level) : Level :=
  let requested := if 2 ≤ count then .debug else if count = 1 then .info else current
  if requested.rank < current.rank then requested else current

end Level

end Lifecycle
