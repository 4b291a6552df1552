import Lifecycle.Report.Cause

/- Values in log lines.

   A value is logged as its plain JSON. What plain JSON refuses, big integers, is
   logged with its members sorted by name and cut off below a depth. A record that
   looks like an error is logged with its sort first, then its message and its stack
   with those of its causes, and then what else it holds. Members that look like those
   of a request are logged under one name, with what is worth knowing of it. -/
namespace Lifecycle.Log

/-! ## Sorted members -/

/-- Insert a member among members that are sorted by name. -/
def insertByName (m : Text × Value) : Members → Members
  | [] => [m]
  | n :: rest => if n.1 < m.1 then n :: insertByName m rest else m :: n :: rest

def sortByName (ms : Members) : Members := ms.foldr insertByName []

/-- How deep sorted values are logged. -/
def maxDepth : Nat := 5

mutual

/-- A value with sorted members; what lies too deep is replaced by the name of its sort. -/
def sorted (depth : Nat) : Value → Value
  | .array items =>
    if items.isEmpty then .array []
    else if depth = 0 then .text "[Array]"
    else .array (sortedItems (depth - 1) items)
  | .object ms =>
    if ms.isEmpty || Json.speaksForItself ms then .object ms
    else if depth = 0 then .text "[Object]"
    else .object (sortByName (sortedMembers (depth - 1) ms))
  | v => v

def sortedItems (depth : Nat) : List Value → List Value
  | [] => []
  | v :: rest => sorted depth v :: sortedItems depth rest

def sortedMembers (depth : Nat) : List (Text × Value) → List (Text × Value)
  | [] => []
  | (name, v) :: rest => (name, sorted depth v) :: sortedMembers depth rest

end

/-- The text of a value in a line, if it has one. -/
def valueText? (v : Value) : Option Text :=
  if v.hasBigint then Json.render? [] 0 (sorted maxDepth v.expand) else v.plainJson?

/-! ## Errors -/

/-- Whether a value looks like an error: its message is a text. -/
def isErrorLike (v : Value) : Bool := (v.get "message").text?.isSome

mutual

/-- The message of a record that looks like an error, followed by the messages of its causes. -/
def fullMessage : Value → Text
  | .object ms => (((Member.find? "message" ms).bind Value.text?).getD []) ++ causeMessage ms
  | .error m ms => m ++ causeMessage ms
  | _ => []

def causeMessage : List (Text × Value) → Text
  | [] => []
  | (name, v) :: rest =>
    if name = "cause" then if isErrorLike v then ": " ++ fullMessage v else []
    else causeMessage rest

end

/-- Whether a value counts as nothing where a condition is read from it. -/
def countsAsNothing : Value → Bool
  | .null => true
  | .undefined => true
  | .bool b => !b
  | .number x => !(x.lt .zero || Double.zero.lt x)
  | .text s => s.isEmpty
  | .bigint n => n == 0
  | _ => false

/-- The stack that a record brings along; it is empty unless there is something. -/
def ownStack (ms : Members) : Value :=
  match Member.find? "stack" ms with
  | none => .text []
  | some v => if countsAsNothing v then .text [] else v

/-- A stack above the one of a cause. -/
def stackAbove (own : Value) : Option Value → Value
  | none => own
  | some below =>
    let words (v : Value) : Text := v.plainWords.toOption.getD []
    .text (words own ++ "\ncaused by: " ++ words below)

mutual

/-- The stack of a record that looks like an error, above the stacks of its causes. -/
def fullStack : Value → Value
  | .object ms => stackAbove (ownStack ms) (causeStack ms)
  | .error _ ms => stackAbove (ownStack ms) (causeStack ms)
  | _ => .text []

def causeStack : List (Text × Value) → Option Value
  | [] => none
  | (name, v) :: rest =>
    if name = "cause" then if isErrorLike v then some (fullStack v) else none
    else causeStack rest

end

/-- The sort of a record, unless it says that it is made by something without a name. -/
def sortOf? (ms : Members) : Option Value :=
  match Member.find? "constructor" ms with
  | none => some (.text "Object")
  | some .function => some (.text [])
  | some _ => (Member.find? "name" ms).filter fun v => !v.isUndefined

/-- The names of members that are not logged again. -/
def shownFirst : List Text := ["type", "message", "stack", "raw"]

/-- The names of what every record has though it is not its own, which is not logged. -/
def inherited : List Text := ["constructor", "hasOwnProperty", "isPrototypeOf", "propertyIsEnumerable",
  "toLocaleString", "toString", "valueOf", "__proto__", "__defineGetter__", "__defineSetter__",
  "__lookupGetter__", "__lookupSetter__"]

/-- The name of the errors that an error stands for. -/
def aggregateName : Text := "aggregateErrors"

/-- What is logged of a record that looks like an error: its sort, message and stack, the errors that it
    stands for, and then the members that it shows besides. -/
def arranged (ms shown : Members) (errors : Option (List Value)) : Members :=
  let sort : Members :=
    (((sortOf? ms).or (Member.find? "type" shown)).map fun v => (("type" : Text), v)).toList
  let head : Members := [("message", .text (fullMessage (.object ms))), ("stack", fullStack (.object ms))]
  let aggregate : Members := (errors.map fun items => (aggregateName, .array items)).toList
  sort ++ head ++ aggregate ++ shown.filter fun m =>
    !(shownFirst.contains m.1 || inherited.contains m.1 || (m.1 = aggregateName && errors.isSome))

mutual

/-- A value as an error: a record that looks like one is rearranged, and so are those it holds. -/
def asError : Value → Value
  | .object ms =>
    if isErrorLike (.object ms) then .object (arranged ms (asErrorMembers ms) (errorsOf? ms))
    else .object ms
  | v => v

/-- The members that an error shows: its cause is told in its message. -/
def asErrorMembers : List (Text × Value) → List (Text × Value)
  | [] => []
  | (name, v) :: rest =>
    if name = "cause" && isErrorLike v then asErrorMembers rest
    else (name, asError v) :: asErrorMembers rest

/-- The errors that an error stands for, if it brings a list of them. -/
def errorsOf? : List (Text × Value) → Option (List Value)
  | [] => none
  | (name, v) :: rest =>
    if name = "errors" then
      match v with
      | .array items => some (asErrorItems items)
      | _ => none
    else errorsOf? rest

def asErrorItems : List Value → List Value
  | [] => []
  | v :: rest => asError v :: asErrorItems rest

end

/-! ## Requests -/

/-- The value under a name, unless it counts as nothing. -/
def said? (name : Text) (ms : Members) : Option Value :=
  (Member.find? name ms).filter fun v => !countsAsNothing v

/-- Whether members are those of a request: there is a method, there are headers and a socket. -/
def isRequest (ms : Members) : Bool :=
  (said? "method" ms).isSome && (said? "headers" ms).isSome && (said? "socket" ms).isSome

def requestUrl? (ms : Members) : Option Value :=
  (said? "originalUrl" ms).or <|
    match Member.find? "path" ms with
    | some (.text t) => some (.text t)
    | _ => (said? "url" ms).map fun url => (said? "path" url.members).getD url

def requestMembers (ms : Members) : Members :=
  let connection := (said? "info" ms).or (said? "socket" ms)
  let shown : List (Text × Option Value) := [
    ("id", (said? "id" ms).or ((said? "info" ms).bind (·.get? "id"))), ("method", said? "method" ms),
    ("url", requestUrl? ms), ("query", said? "query" ms), ("params", said? "params" ms),
    ("headers", said? "headers" ms), ("remoteAddress", connection.bind (·.get? "remoteAddress")),
    ("remotePort", connection.bind (·.get? "remotePort"))]
  shown.filterMap fun m => m.2.map fun v => (m.1, v)

/-- What is logged of the members of an entry: those of a request as one. -/
def subject (ms : Members) : Members :=
  if isRequest ms then [("req", .object (requestMembers ms))] else ms

/-! ## The error of an entry -/

/-- The name under which an entry holds an error. -/
def errorName : Text := "err"

/-- Members with the error among them as it is logged. -/
def withError (ms : Members) : Members :=
  ms.map fun m => if m.1 = errorName then (m.1, asError m.2) else m

end Lifecycle.Log
