import Lifecycle.Json.Printer
import Lifecycle.Number.Numeral

/- Values as words and as amounts.

   A sentence takes a value by its words: a text as it is, a list by the words of its
   items, an error by its name and message. A comparison takes it by its amount: a
   number as it is, any other value by the numeral that its words are. An object may
   bring functions of its own to be asked instead, whose answer is undefined. Some
   values have no words, and some no amount. -/
namespace Lifecycle

/-- Why a value has no words, or no amount. -/
inductive ConversionError where
  | symbolAsText
  | symbolAsNumber
  | bigintAsNumber
  | noPlainForm
  | unsafeNumber (l : Literal)
deriving DecidableEq

namespace ConversionError

/-- What a double would make of an unsafe number. -/
def mishap (x : Double) : Text :=
  (if x.isFinite then ("underflow" : Text) else "overflow") ++ " and become " ++ x.toText

def message : ConversionError → Text
  | .symbolAsText => "Cannot convert a Symbol value to a string"
  | .symbolAsNumber => "Cannot convert a Symbol value to a number"
  | .bigintAsNumber => "Cannot convert a BigInt value to a number"
  | .noPlainForm => "Cannot convert object to primitive value"
  | .unsafeNumber l =>
    "Cannot safely convert to number: the value '" ++ l.text ++ "' would " ++ mishap l.toDouble

/-- Whether the value is of a type that the conversion refuses as a whole. -/
def isOfType : ConversionError → Bool
  | .unsafeNumber _ => false
  | _ => true

end ConversionError

namespace Value

/-! ## Words -/

/-- What an object with a member `toString` says in place of the general words: undefined if that
    member is a function or, failing that, the member `valueOf` is one; otherwise nothing. -/
def ownWords? (ms : Members) : Option (Except ConversionError Text) :=
  match Member.find? "toString" ms, Member.find? "valueOf" ms with
  | none, _ => none
  | some .function, _ => some (.ok "undefined")
  | some _, some .function => some (.ok "undefined")
  | some _, _ => some (.error .noPlainForm)

def objectWords : Text := "[object Object]"

/-- The words of an error, which are its name alone or its message alone if the other is empty. -/
def errorWords (name message : Text) : Text :=
  if name.isEmpty then message else if message.isEmpty then name else name ++ ": " ++ message

mutual

/-- The words of a value. -/
def words : Value → Except ConversionError Text
  | .null => .ok "null"
  | .undefined => .ok "undefined"
  | .bool true => .ok "true"
  | .bool false => .ok "false"
  | .number x => .ok x.toText
  | .exact l => .ok l.text
  | .text s => .ok s
  | .array items => (itemWords items).map (Text.join ",")
  | .object ms => (ownWords? ms).getD (.ok objectWords)
  | .function => .ok "function"
  | .symbol => .error .symbolAsText
  | .bigint n => .ok (Text.ofInt n)
  | .error m ms => (ownWords? ms).getD ((nameWords ms).map fun name => errorWords name m)

/-- The words of the items of a list; those of an absent item are empty. -/
def itemWords : List Value → Except ConversionError (List Text)
  | [] => .ok []
  | v :: rest => do
    let t ← if v.isAbsent then .ok [] else v.words
    .ok (t :: (← itemWords rest))

/-- The words of an error's name, which is a general one unless the members give another. -/
def nameWords : List (Text × Value) → Except ConversionError Text
  | [] => .ok "Error"
  | (k, v) :: rest =>
    if k = "name" then if v.isUndefined then .ok "Error" else v.words
    else nameWords rest

end

/-- The words of a value that stands alone, where a symbol has some. -/
def plainWords : Value → Except ConversionError Text
  | .symbol => .ok "Symbol()"
  | v => v.words

/-- The name and the message of an error in full. -/
def headline (message : Text) (ms : Members) : Except ConversionError Text :=
  let name : Except ConversionError Text := match Member.find? "name" ms with
    | none => .ok "Error"
    | some v => v.words
  name.map (· ++ ": " ++ message)

/-! ## Amounts -/

/-- The number that words are, if they are a numeral. -/
def amountOfWords (t : Text) : Double := (Numeral.read? t).getD .nan

/-- What an object says in place of the general amount: a function under `valueOf` gives no
    number, and its own words count otherwise. -/
def ownAmount? (ms : Members) : Option (Except ConversionError Double) :=
  match Member.find? "valueOf" ms with
  | some .function => some (.ok .nan)
  | _ => (ownWords? ms).map (·.map amountOfWords)

/-- The amount of an exact number: a double near it, unless that is zero or infinite. -/
def exactAmount (l : Literal) : Except ConversionError Double :=
  if l.isInteger || l.isSafe || (l.toDouble.isFinite && !l.toDouble.same .zero) then .ok l.toDouble
  else .error (.unsafeNumber l)

/-- The amount of a value, big integers included. -/
def amount : Value → Except ConversionError Double
  | .null => .ok .zero
  | .undefined => .ok .nan
  | .bool b => .ok (if b then .ofNat 1 else .zero)
  | .number x => .ok x
  | .exact l => exactAmount l
  | .text s => .ok (amountOfWords s)
  | .array items => (Value.array items).words.map amountOfWords
  | .object ms => (ownAmount? ms).getD (.ok .nan)
  | .function => .ok .nan
  | .symbol => .error .symbolAsNumber
  | .bigint n => .ok (.ofInt n)
  | .error m ms => (ownAmount? ms).getD ((Value.error m ms).words.map amountOfWords)

/-- Whether a value is a big integer, or an exact number that is one. -/
def isBigint : Value → Bool
  | .bigint _ => true
  | .exact l => l.isInteger && !l.isSafe
  | _ => false

end Value

end Lifecycle
