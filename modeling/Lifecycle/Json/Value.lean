import Lifecycle.Json.Literal

/- The tree of values that requests, responses and callback contexts are made of.

   JSON data are null, booleans, numbers, texts, lists and objects; a number that a
   double would change is carried as the literal it was written as. A caller may
   also hand over what no JSON text denotes (an undefined value, a function, an
   error …); such leaves are part of the type so that the checks have something
   to refuse. -/
namespace Lifecycle

/-- A value: a JSON tree, possibly with leaves that are not JSON. -/
inductive Value where
  | null
  | bool (b : Bool)
  | number (x : Double)
  | exact (l : Literal)
  | text (s : Text)
  | array (items : List Value)
  | object (members : List (Text × Value))
  | undefined
  | function
  | symbol
  | bigint (n : Int)
  | error (message : Text) (members : List (Text × Value))

instance : Inhabited Value := ⟨.null⟩

abbrev Members := List (Text × Value)

/-! ## Members -/

namespace Member

variable {α : Type}

def find? (name : Text) : List (Text × α) → Option α
  | [] => none
  | (k, v) :: rest => if k = name then some v else find? name rest

/-- Set the value under a name: in place if the name is there, else at the end. -/
def set (name : Text) (value : α) : List (Text × α) → List (Text × α)
  | [] => [(name, value)]
  | (k, v) :: rest => if k = name then (k, value) :: rest else (k, v) :: set name value rest

/-- One member per name, where the name first appears and with its last value. -/
def lastWins (ms : List (Text × α)) : List (Text × α) :=
  ms.foldl (fun acc m => set m.1 m.2 acc) []

/-- The index that a name spells: a decimal integer below 2^32 - 1 without leading zeros. -/
def index? (name : Text) : Option Nat :=
  match name.mapM Text.digit? with
  | some (d :: ds) =>
    if d.val = 0 ∧ ds ≠ [] then none
    else if 10 < ds.length + 1 then none
    else
      let n := Decimal.ofDigits (d :: ds)
      if n < Nat.pow 2 32 - 1 then some n else none
  | _ => none

/-- Insert by index among members that are sorted by theirs. -/
def insertByIndex (i : Nat) (m : Text × α) : List (Nat × (Text × α)) → List (Nat × (Text × α))
  | [] => [(i, m)]
  | (j, n) :: rest => if i ≤ j then (i, m) :: (j, n) :: rest else (j, n) :: insertByIndex i m rest

/-- The order in which an object lists its members: indices ascending, then the other names. -/
def arrange (ms : List (Text × α)) : List (Text × α) :=
  let indexed := ms.filterMap fun m => (index? m.1).map fun i => (i, m)
  (indexed.foldr (fun im acc => insertByIndex im.1 im.2 acc) []).map (·.2) ++
    ms.filter fun m => (index? m.1).isNone

end Member

namespace Value

def ofMembers (ms : Members) : Value := .object (Member.arrange (Member.lastWins ms))

/-- The members by name of any value; only objects and errors have any. -/
def members : Value → Members
  | .object ms => ms
  | .error _ ms => ms
  | _ => []

/-- The value under a name; an error has its message under that name. -/
def find? (v : Value) (name : Text) : Option Value :=
  match v, Member.find? name v.members with
  | .error m _, none => if name = "message" then some (.text m) else none
  | _, r => r

/-- The value of a member, if it is there and not undefined. -/
def get? (v : Value) (name : Text) : Option Value :=
  match v.find? name with
  | some .undefined => none
  | r => r

/-- The value of a member; a missing one is undefined. -/
def get (v : Value) (name : Text) : Value := (v.find? name).getD .undefined

/-- A text from a value, for values that are texts. -/
def text? : Value → Option Text
  | .text s => some s
  | _ => none

def isUndefined : Value → Bool
  | .undefined => true
  | _ => false

def isFunction : Value → Bool
  | .function => true
  | _ => false

/-- Whether a value counts as absent: null or undefined. -/
def isAbsent : Value → Bool
  | .null => true
  | .undefined => true
  | _ => false

def present? (v : Value) : Option Value := if v.isAbsent then none else some v

/-! ## What is JSON -/

/-- Whether a value is an object of members: not a list, and not an exact number. -/
def isObject : Value → Bool
  | .object _ => true
  | .error _ _ => true
  | _ => false

mutual

/-- The path to the first part that is not JSON data, depth first. -/
def nonJsonPath? : Value → Option (List Text)
  | .null => none
  | .bool _ => none
  | .exact _ => none
  | .text _ => none
  | .number x => if x.isFinite then none else some []
  | .array items => nonJsonItem? 0 items
  | .object ms => nonJsonMember? ms
  | .error _ ms => nonJsonMember? ms
  | .undefined => some []
  | .function => some []
  | .symbol => some []
  | .bigint _ => some []

/-- The same among the items of a list, counted from an index. -/
def nonJsonItem? (index : Nat) : List Value → Option (List Text)
  | [] => none
  | v :: rest =>
    match nonJsonPath? v with
    | some path => some (Text.ofNat index :: path)
    | none => nonJsonItem? (index + 1) rest

def nonJsonMember? : List (Text × Value) → Option (List Text)
  | [] => none
  | (name, v) :: rest =>
    match nonJsonPath? v with
    | some path => some (name :: path)
    | none => nonJsonMember? rest

end

/-- Whether every part of a value is JSON data. -/
def isJson (v : Value) : Bool := (nonJsonPath? v).isNone

/-- Whether a value is an object of JSON data. -/
def isJsonObject (v : Value) : Bool := v.isObject && v.isJson

/-- The part that a step of a path leads to: a member by name, a list item by index. -/
def child (v : Value) (name : Text) : Value :=
  match v with
  | .array items =>
    match Member.index? name with
    | some i => items.getD i .undefined
    | none => .undefined
  | v => v.get name

def follow (v : Value) (path : List Text) : Value := path.foldl child v

/-! ## Names of kinds -/

/-- The kind of a value in the words of shape messages. -/
def kind : Value → Text
  | .bool _ => "boolean"
  | .number _ => "number"
  | .text _ => "string"
  | .undefined => "undefined"
  | .function => "function"
  | .symbol => "symbol"
  | .bigint _ => "bigint"
  | _ => "object"

end Value

end Lifecycle
