import Lifecycle.Json.Value

/- A JSON document as it is written, and the value it denotes.

   A document keeps what a value does not: repeated members in order of appearance,
   and every number as its literal. Its value has one member per name, where the
   name first appears and with its last value. A number that is not safe as a
   double stays a literal, unless the document is inconsistent: some object repeats a
   member, and the two values do not agree. Then every number of the document becomes
   a double. Two literals that are kept agree only if they are spelled alike. -/
namespace Lifecycle

/-- A JSON document as written. -/
inductive Document where
  | null
  | bool (b : Bool)
  | number (l : Literal)
  | text (s : Text)
  | array (items : List Document)
  | object (members : List (Text × Document))

instance : Inhabited Document := ⟨.null⟩

namespace Document

/-! ## Values -/

/-- The value of a number literal, kept exact on demand when it is not safe. -/
def numberValue (exact : Bool) (l : Literal) : Value :=
  if exact && !l.isSafe then .exact l else .number l.toDouble

mutual

/-- The value of a document, with or without exact numbers. -/
def value (exact : Bool) : Document → Value
  | .null => .null
  | .bool b => .bool b
  | .number l => numberValue exact l
  | .text s => .text s
  | .array items => .array (itemValues exact items)
  | .object ms => .ofMembers (memberValues exact ms)

def itemValues (exact : Bool) : List Document → List Value
  | [] => []
  | d :: rest => d.value exact :: itemValues exact rest

def memberValues (exact : Bool) : List (Text × Document) → Members
  | [] => []
  | (name, d) :: rest => (name, d.value exact) :: memberValues exact rest

end

/-! ## Repeated members -/

/-- The parts of a value by name: list items under their index, and an exact number as the
    record of its digits. Scalars have none. -/
def parts? : Value → Option Members
  | .array items => some (items.mapIdx fun i v => (Text.ofNat i, v))
  | .object ms => some ms
  | .exact l => some [("value", .text l.text), ("isLosslessNumber", .bool true)]
  | _ => none

/-- Equality of scalars; the two zeros are equal. -/
def sameScalar : Value → Value → Bool
  | .null, .null => true
  | .bool a, .bool b => a == b
  | .text a, .text b => a == b
  | .number a, .number b => a.same b
  | _, _ => false

/-- What all values of one sort share. It stands for the parts that a value of the sort has not
    itself: the archetype under the name that leads there, and the length of a list. -/
inductive Archetype where
  | object
  | list
  | number
deriving DecidableEq

/-- The name under which a value leads to its archetype. -/
def archetypeName : Text := "__proto__"

def isCount (n : Nat) : Value → Bool
  | .number x => x.same (.ofNat n)
  | _ => false

mutual

/-- Whether a value agrees with an archetype, which has no parts of its own: that of lists is an
    empty list, and all lead to the one of objects, which leads to null. -/
def resembles (k : Archetype) : Value → Bool
  | .array items => items.isEmpty
  | .object ms => membersResemble k ms
  | _ => false

def membersResemble (k : Archetype) : List (Text × Value) → Bool
  | [] => true
  | (name, v) :: rest =>
    (if name = archetypeName then
      if k = .object then (match v with | .null => true | _ => false) else resembles .object v
    else k = .list && name = "length" && isCount 0 v) && membersResemble k rest

end

/-- Whether a value agrees with what another one has under a name without a part of that name. -/
def agreesWithMissing (name : Text) (v : Value) : Value → Bool
  | .array items =>
    if name = "length" then isCount items.length v
    else name = archetypeName && resembles .list v
  | .object _ => name = archetypeName && resembles .object v
  | .exact _ => name = archetypeName && resembles .number v
  | _ => false

/-- Whether two values agree part by part, to a given depth: scalars are equal, and the same names
    lead to agreeing values. The order of members does not count, nor does the sort of a value
    beyond what its parts say. -/
def agree : Nat → Value → Value → Bool
  | 0, _, _ => false
  | depth + 1, a, b =>
    match parts? a, parts? b with
    | some xs, some ys =>
      xs.all (fun x =>
        match Member.find? x.1 ys with
        | some y => agree depth x.2 y
        | none => agreesWithMissing x.1 x.2 b) &&
        ys.all (fun y => (Member.find? y.1 xs).isSome || agreesWithMissing y.1 y.2 a)
    | none, none => sameScalar a b
    | _, _ => false

mutual

/-- The nesting depth of a value, at least one. -/
def depth : Value → Nat
  | .array items => 1 + itemsDepth items
  | .object ms => 1 + membersDepth ms
  | _ => 2

def itemsDepth : List Value → Nat
  | [] => 1
  | v :: rest => max (depth v) (itemsDepth rest)

def membersDepth : List (Text × Value) → Nat
  | [] => 1
  | (_, v) :: rest => max (depth v) (membersDepth rest)

end

def sameValue (a b : Value) : Bool := agree (depth a + depth b) a b

/-- Whether each member agrees with the value its name had before. -/
def repeatsAgree : List (Text × Value) → List (Text × Value) → Bool
  | _, [] => true
  | seen, (name, v) :: rest =>
    (match Member.find? name seen with
      | some before => sameValue v before
      | none => true) && repeatsAgree (Member.set name v seen) rest

mutual

/-- Whether in every object of a document the values of a repeated member agree. Numbers that are not
    safe are compared by their spelling, so that 1e400 and 10e399 do not. -/
def isConsistent : Document → Bool
  | .array items => itemsConsistent items
  | .object ms => membersConsistent ms && repeatsAgree [] (memberValues true ms)
  | _ => true

def itemsConsistent : List Document → Bool
  | [] => true
  | d :: rest => d.isConsistent && itemsConsistent rest

def membersConsistent : List (Text × Document) → Bool
  | [] => true
  | (_, d) :: rest => d.isConsistent && membersConsistent rest

end

def toValue (d : Document) : Value := d.value d.isConsistent

/-- The value a document denotes when every number is a double. -/
def toPlainValue (d : Document) : Value := d.value false

end Document

end Lifecycle
