import Lifecycle.Json.Reader

/- A value merged from two readings of one text.

   The plain reading of a text turns every number into a double. A second reading keeps
   the numbers that a double would change, but it may refuse a text that the plain one
   takes, and it may assign members under `Document.archetypeName` where the plain one
   defines them. So the plain value gives the tree, and only exact numbers are taken over,
   from the part of the second reading under the same index or name. -/
namespace Lifecycle

/-- The tree of the second reading. An object has members of its own and, if one has been assigned
    under the name of the archetype, a prototype. -/
inductive ExactTree where
  | null
  | bool (b : Bool)
  | number (x : Double)
  | exact (l : Literal)
  | text (s : Text)
  | array (items : List ExactTree)
  | object (own : List (Text × ExactTree)) (prototype : Option ExactTree)

namespace ExactTree

/-- Whether what is assigned under the name of the archetype replaces the prototype: a list or an
    object does, and a primitive is ignored. An exact number is a primitive of JSON, but it may be
    an object to the reader that made it. -/
def replaces (numberIsObject : Bool) : ExactTree → Bool
  | .array _ => true
  | .object _ _ => true
  | .exact _ => numberIsObject
  | _ => false

/-- The exact number that a tree passes for: the one that it is, or that its prototype passes for. -/
def literal? : ExactTree → Option Literal
  | .exact l => some l
  | .object _ (some prototype) => prototype.literal?
  | _ => none

/-- The parts by index; there are none but in a list. -/
def items : Option ExactTree → List ExactTree
  | some (.array items) => items
  | _ => []

/-- The part under a name: one of its own, or else the prototype under the name that leads there.
    No archetype has an exact number. -/
def member? (name : Text) : Option ExactTree → Option ExactTree
  | some (.object own prototype) =>
    match Member.find? name own with
    | some r => some r
    | none => if name = Document.archetypeName then prototype else none
  | some (.array items) =>
    match Member.index? name with
    | some i => items[i]?
    | none => if name = "length" then some (.number (.ofNat items.length)) else none
  | some (.exact l) =>
    if name = "value" then some (.text l.text)
    else if name = "isLosslessNumber" then some (.bool true) else none
  | _ => none

end ExactTree

namespace Value

mutual

/-- A plain value with the exact numbers of a tree. It fails at leaves that no text denotes. -/
def merge? : Value → Option ExactTree → Option Value
  | .number x, r => some (((r.bind ExactTree.literal?).map .exact).getD (.number x))
  | .null, _ => some .null
  | .bool b, _ => some (.bool b)
  | .text s, _ => some (.text s)
  | .array vs, r => (mergeItems? vs (ExactTree.items r)).map .array
  | .object ms, r => (mergeMembers? ms r).map .ofMembers
  | .error _ ms, r => (mergeMembers? ms r).map .ofMembers
  | .exact l, _ => some (.object [("value", .text l.text), ("isLosslessNumber", .bool true)])
  | .undefined, _ => none
  | .function, _ => none
  | .symbol, _ => none
  | .bigint _, _ => none

def mergeItems? : List Value → List ExactTree → Option (List Value)
  | [], _ => some []
  | v :: vs, rs => do
    let v ← merge? v rs.head?
    let vs ← mergeItems? vs rs.tail
    some (v :: vs)

def mergeMembers? : List (Text × Value) → Option ExactTree → Option Members
  | [], _ => some []
  | (name, v) :: ms, r => do
    let v ← merge? v (ExactTree.member? name r)
    let ms ← mergeMembers? ms r
    some ((name, v) :: ms)

end

mutual

/-- A value with every exact number replaced by its double. -/
def rounded : Value → Value
  | .exact l => .number l.toDouble
  | .array vs => .array (roundedItems vs)
  | .object ms => .object (roundedMembers ms)
  | .error m ms => .error m (roundedMembers ms)
  | v => v

def roundedItems : List Value → List Value
  | [] => []
  | v :: vs => v.rounded :: roundedItems vs

def roundedMembers : List (Text × Value) → Members
  | [] => []
  | (name, v) :: ms => (name, v.rounded) :: roundedMembers ms

end

end Value

namespace Document

/-- What a reader does with a member under the name of the archetype: define it like any other, or
    assign it, when it may replace the prototype. -/
inductive Placement where
  | defines
  | assigns (numberIsObject : Bool)

/-- The prototype that members assigned under the name of the archetype leave. -/
def prototype? (placement : Placement) (rs : List (Text × ExactTree)) : Option ExactTree :=
  match placement with
  | .defines => none
  | .assigns numberIsObject =>
    (((rs.filter fun r => r.1 = archetypeName).map (·.2)).filter (·.replaces numberIsObject)).getLast?

/-- The members of its own that an object gets. -/
def ownMembers (placement : Placement) (rs : List (Text × ExactTree)) : List (Text × ExactTree) :=
  match placement with
  | .defines => Member.lastWins rs
  | .assigns _ => Member.lastWins (rs.filter fun r => r.1 ≠ archetypeName)

mutual

/-- The tree that the second reading builds of a document. -/
def exactTree (placement : Placement) : Document → ExactTree
  | .null => .null
  | .bool b => .bool b
  | .number l => if l.isSafe then .number l.toDouble else .exact l
  | .text s => .text s
  | .array ds => .array (exactItems placement ds)
  | .object ms =>
    let rs := exactMembers placement ms
    .object (ownMembers placement rs) (prototype? placement rs)

def exactItems (placement : Placement) : List Document → List ExactTree
  | [] => []
  | d :: ds => d.exactTree placement :: exactItems placement ds

def exactMembers (placement : Placement) : List (Text × Document) → List (Text × ExactTree)
  | [] => []
  | (name, d) :: ms => (name, d.exactTree placement) :: exactMembers placement ms

end

end Document

namespace Json

/-- A reader that keeps exact numbers: how it treats members under the name of the archetype, and
    which documents it does not refuse. -/
structure ExactReader where
  placement : Document.Placement
  accepts : Document → Bool

namespace ExactReader

/-- The reader that defines every member and refuses a document that is inconsistent. -/
def defining : ExactReader := ⟨.defines, Document.isConsistent⟩

/-- What a reader makes of a text, if it does not refuse it. -/
def read? (reader : ExactReader) (t : Text) : Option ExactTree :=
  (document? t).bind fun d => if reader.accepts d then some (d.exactTree reader.placement) else none

end ExactReader

/-- The value of a text with doubles only, or nothing if it is not JSON. -/
def plain? (t : Text) : Option Value := (document? t).map Document.toPlainValue

/-- The plain value of a text with the exact numbers of a reader. -/
def parseWith (reader : ExactReader) (t : Text) : Option Value :=
  (plain? t).bind fun v => v.merge? (reader.read? t)

end Json

end Lifecycle
