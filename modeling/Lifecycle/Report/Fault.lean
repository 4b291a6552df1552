import Lifecycle.Report.Cause
import Lifecycle.Run.State

/- Errors that nothing foresees.

   A step that is taken where it cannot be, a value without words, a value of an
   unforeseen kind, nothing at all where a record is needed, or what a handler
   throws: each ends whatever it arises in. -/
namespace Lifecycle

/-- An error that ends whatever it arises in. -/
inductive Fault where
  | step (e : StepError)
  | conversion (e : ConversionError)
  | unhandled (u : UnhandledVariant)
  | noRecord (found : Value) (member : Text)
  | thrown (message : Text)

namespace Fault

def message : Fault → Text
  | .step e => e.message
  | .conversion e => e.message
  | .unhandled u => u.message
  | .noRecord found member =>
    "Cannot read properties of " ++ (if found.isUndefined then ("undefined" : Text) else "null") ++
      " (reading '" ++ member ++ "')"
  | .thrown message => message

/-- Whether a fault lies in the type of a value. -/
def isOfType : Fault → Bool
  | .conversion e => e.isOfType
  | .unhandled u => !u.isPrintable
  | .noRecord .. => true
  | _ => false

def name (f : Fault) : Text := if f.isOfType then "TypeError" else "Error"

def describe (f : Fault) : Text := f.name ++ ": " ++ f.message

end Fault

end Lifecycle
