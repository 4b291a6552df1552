import Lifecycle.Log.Level
import Lifecycle.Log.Redaction
import Lifecycle.Log.Rendering

/- Loggers and the lines they write.

   A logger has a level and bindings that stand at the start of each of its lines.
   A child adds bindings and keeps the level that its parent had then. A line is one
   JSON object: the level's number, the bindings, the members of the entry and its
   message, with credentials hidden. Bindings and members may repeat names. An entry
   without a message takes the one of the error it holds. -/
namespace Lifecycle

structure LogEntry where
  level : Level
  members : Members
  message : Option Text

structure Logger where
  level : Level
  bindings : Members

namespace Logger

/-! ## Lines -/

/-- A member of a line; what has no JSON text is left out. -/
def part (name : Text) (v : Value) : Text :=
  match Log.valueText? v with
  | some t => "," ++ name ++ ":" ++ t
  | none => []

/-- Names that a binding cannot have. -/
def reserved : List Text := ["level", "serializers", "formatters", "customLevels"]

/-- The bindings of a line. Their names are written without escapes. -/
def bindingText (ms : Members) : Text :=
  let shown := ms.filter fun m => !(reserved.contains m.1) && !m.2.isUndefined
  (Redaction.redact (Log.withError shown)).flatMap fun m => part ("\"" ++ m.1 ++ "\"") m.2

/-- The members of a line; functions are left out even where they would be hidden. -/
def memberText (ms : Members) : Text :=
  let shown := ms.filter fun m => !m.2.isUndefined && !m.2.isFunction
  (Redaction.redact (Log.withError shown)).flatMap fun m => part (Json.quote m.1) m.2

/-- The message of an entry: its own, or whatever message the error it holds has. -/
def messageOf (e : LogEntry) : Option Value :=
  (e.message.map .text).or
    ((Member.find? Log.errorName (Log.subject e.members)).bind fun v => v.get? "message")

/-- The message of a line, as a member of its own. -/
def messageText (message : Option Value) : Text :=
  memberText (message.map fun m => (("msg" : Text), m)).toList

def line (l : Logger) (e : LogEntry) : Text :=
  "\x7b\"level\":" ++ Text.ofNat e.level.number ++ bindingText l.bindings ++
    memberText (Log.subject e.members) ++ messageText (messageOf e) ++ "\x7d"

/-- The line that a logger writes, if its level lets it. -/
def write (l : Logger) (e : LogEntry) : List Text :=
  if l.level.writes e.level then [l.line e] else []

/-! ## Loggers -/

def child (l : Logger) (bindings : Members) : Logger := { l with bindings := l.bindings ++ bindings }

def component (l : Logger) (name : Text) : Logger := l.child [("component", .text name)]

def levelVariable : Text := "PROVIDER_INVOKE_LOG_LEVEL"

/-- The level that the environment asks for; without one, nothing is written. -/
def levelOf (environment : List (Text × Text)) : Level :=
  ((Member.find? levelVariable environment).bind Level.ofName?).getD .silent

def root (environment : List (Text × Text)) : Logger := ⟨levelOf environment, []⟩

end Logger

/-! ## Levels by name -/

/-- A name that is no level. -/
inductive UnknownLevel where
  | atStart (name : Text)
  | later (name : Text)
deriving DecidableEq

namespace UnknownLevel

def message : UnknownLevel → Text
  | .atStart name => "default level:" ++ name ++ " must be included in custom levels"
  | .later name => "unknown level " ++ name

end UnknownLevel

namespace Logger

/-- A root logger at a named level, which has to be spelled exactly. -/
def rootAt (name : Text) : Except UnknownLevel Logger :=
  match Level.ofExactName? name with
  | some level => .ok ⟨level, []⟩
  | none => .error (.atStart name)

def setLevel (l : Logger) (name : Text) : Except UnknownLevel Logger :=
  match Level.ofExactName? name with
  | some level => .ok { l with level := level }
  | none => .error (.later name)

end Logger

end Lifecycle
