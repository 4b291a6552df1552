import Lifecycle.Json.Value

/- Hiding credentials in log entries.

   A path names a part of an entry member by member; a star stands for any member.
   A part that some path selects is replaced by a fixed text, whatever it is, and
   everything else is left as it is. List items are members under their index. -/
namespace Lifecycle

/-- One step of a path: a member by name, or any member. -/
inductive PathStep where
  | any
  | name (n : Text)
deriving DecidableEq

def PathStep.leadsTo (s : PathStep) (member : Text) : Bool :=
  match s with
  | .any => true
  | .name n => n == member

abbrev RedactionPath := List PathStep

namespace Redaction

/-! ## Paths -/

/-- A path from its written form, the steps separated by dots. -/
def ofText (t : Text) : RedactionPath :=
  (Text.splitAll (Text.unit '.') t).map fun (s : Text) =>
    if s = ("*" : Text) then .any else .name s

/-- The written forms of the paths that select credentials: at the top of an entry, one level
    below, in the shape cloud credentials have, and in headers. -/
def pathTexts : List Text := [
  "token", "secret", "password", "apiKey", "authorization", "credentials",
  "*.secret", "*.password", "*.apiKey", "*.credentials",
  "*.accessKeyId", "*.secretAccessKey", "*.sessionToken", "callbackContext.*.secretAccessKey",
  "headers.authorization", "headers.Authorization", "headers.x-api-key"]

def paths : List RedactionPath := pathTexts.map ofText

/-- What stands in place of a hidden part. -/
def censor : Text := "[REDACTED]"

/-- What is left of the paths below a member. -/
def below (name : Text) (ps : List RedactionPath) : List RedactionPath :=
  ps.filterMap fun
    | [] => none
    | s :: rest => if s.leadsTo name then some rest else none

def isSelected (ps : List RedactionPath) : Bool := ps.contains []

/-! ## Hiding -/

mutual

/-- A value without the parts that the paths select. -/
def hide (ps : List RedactionPath) : Value → Value
  | .object ms => .object (hideMembers ps ms)
  | .error m ms => .error m (hideMembers ps ms)
  | .array items => .array (hideItems ps 0 items)
  | v => v

def hideMembers (ps : List RedactionPath) : List (Text × Value) → List (Text × Value)
  | [] => []
  | (name, v) :: rest =>
    (name, if isSelected (below name ps) then .text censor else hide (below name ps) v) ::
      hideMembers ps rest

def hideItems (ps : List RedactionPath) (index : Nat) : List Value → List Value
  | [] => []
  | v :: rest =>
    (if isSelected (below (Text.ofNat index) ps) then .text censor
      else hide (below (Text.ofNat index) ps) v) :: hideItems ps (index + 1) rest

end

/-- The members of an entry with their credentials hidden. -/
def redact (ms : Members) : Members := hideMembers paths ms

end Redaction

end Lifecycle
