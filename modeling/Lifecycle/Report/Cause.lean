import Lifecycle.Json.Conversion

/- Values in messages.

   An error is shown by its name and message and a text as it is; anything else by
   its plain JSON, in which an exact number is the record of its digits. What JSON
   refuses is shown by its words. -/
namespace Lifecycle

namespace Value

mutual

/-- A value with every exact number as the record of its digits. -/
def expand : Value → Value
  | .exact l => .object [("value", .text l.text), ("isLosslessNumber", .bool true)]
  | .array items => .array (expandItems items)
  | .object ms => .object (expandMembers ms)
  | .error m ms => .error m (expandMembers ms)
  | v => v

def expandItems : List Value → List Value
  | [] => []
  | v :: rest => v.expand :: expandItems rest

def expandMembers : List (Text × Value) → List (Text × Value)
  | [] => []
  | (name, v) :: rest => (name, v.expand) :: expandMembers rest

end

mutual

/-- Whether a big integer occurs anywhere, which plain JSON refuses. An object that speaks for
    itself is not looked into. -/
def hasBigint : Value → Bool
  | .bigint _ => true
  | .array items => hasBigintItem items
  | .object ms => !Json.speaksForItself ms && hasBigintMember ms
  | .error _ ms => !Json.speaksForItself ms && hasBigintMember ms
  | _ => false

def hasBigintItem : List Value → Bool
  | [] => false
  | v :: rest => v.hasBigint || hasBigintItem rest

def hasBigintMember : List (Text × Value) → Bool
  | [] => false
  | (_, v) :: rest => v.hasBigint || hasBigintMember rest

end

/-- The plain JSON text of a value, if it has one. -/
def plainJson? (v : Value) : Option Text := Json.render? [] 0 v.expand

/-- A value in a message, if it has a form there. -/
def describe? : Value → Except ConversionError (Option Text)
  | .error m ms => (headline m ms).map some
  | .text s => .ok (some s)
  | v => if v.hasBigint then v.words.map some else .ok v.plainJson?

/-- The same for a value that contains itself, which plain JSON refuses. -/
def describeCyclic? : Value → Except ConversionError (Option Text)
  | .object ms => if Json.speaksForItself ms then .ok none else (Value.object ms).words.map some
  | .exact l => .ok (some l.text)
  | v => v.describe?

/-- The message of an error, and any other value by its words. -/
def errorMessage : Value → Except ConversionError Text
  | .error m _ => .ok m
  | v => v.plainWords

end Value

/-- A value of a kind that is not foreseen where it stands. -/
structure UnhandledVariant where
  value : Value

namespace UnhandledVariant

/-- Whether the value can be shown at all: JSON refuses big integers. -/
def isPrintable (u : UnhandledVariant) : Bool := !u.value.hasBigint

/-- The wording of an unforeseen kind, or of the refusal to show it. -/
def message (u : UnhandledVariant) : Text :=
  if u.isPrintable then "Unhandled variant: " ++ u.value.plainJson?.getD "undefined"
  else "Do not know how to serialize a BigInt"

end UnhandledVariant

end Lifecycle
