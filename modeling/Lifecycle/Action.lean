import Lifecycle.Text

/- The lifecycle actions of a resource handler. A name is matched exactly. -/
namespace Lifecycle

/-- What a handler can be asked to do with a resource. -/
inductive Action where
  | create
  | read
  | update
  | delete
  | list
deriving DecidableEq

namespace Action

def all : List Action := [.create, .read, .update, .delete, .list]

/-- The name of an action on the wire and on the command line. -/
def name : Action → Text
  | .create => "CREATE"
  | .read => "READ"
  | .update => "UPDATE"
  | .delete => "DELETE"
  | .list => "LIST"

def ofName? (t : Text) : Option Action := all.find? fun a => a.name == t

def nameList : Text := Text.join ", " (all.map name)

end Action

end Lifecycle
