import Lifecycle.Json.Reader
import Lifecycle.Report.Cause
import Lifecycle.Report.Result

/- Files that hold a request or a saved response.

   A file may be missing, refuse to be read, not hold JSON, or be loaded. Only its
   JSON is looked at here; what its shape has to be is up to the reader. A refusal
   is told by its words, so it has to have some. -/
namespace Lifecycle

/-- What a file system has under a name. -/
inductive FileEntry where
  | content (text : Text)
  | unreadable (error : Value)

abbrev Files := List (Text × FileEntry)

/-- What loading a file came to. -/
inductive LoadedFile where
  | notFound
  | readError (message : Text) (code : Option Text)
  | syntaxError (message : Text)
  | loaded (body : Value)

namespace LoadedFile

/-- What stands for the description of a syntax error. -/
def syntaxMessage : Text := "<json syntax error>"

def ofEntry : Option FileEntry → Except ConversionError LoadedFile
  | none => .ok .notFound
  | some (.unreadable e) => e.errorMessage.map fun message => .readError message (e.get "code").text?
  | some (.content t) => .ok (
    match Json.parse? t with
    | some v => .loaded v
    | none => .syntaxError syntaxMessage)

def load (files : Files) (path : Text) : Except ConversionError LoadedFile :=
  ofEntry (Member.find? path files)

/-- What the command line says about a file that is not loaded. -/
def failure? (path : Text) : LoadedFile → Option CommandResult
  | .notFound => some (.misuse { Output.ofMessage ("File not found: " ++ path) with
      suggestions := some ["Check the file path and try again"] })
  | .readError message code =>
    if code = some "EACCES" then
      some (.misuse { Output.ofMessage ("Permission denied: " ++ path) with
        suggestions := some ["Check file permissions and try again"] })
    else
      some (.misuse { Output.ofMessage ("Error reading file: " ++ path) with
        details := some [message] })
  | .syntaxError message =>
    some (.misuse { Output.ofMessage ("Invalid JSON syntax in " ++ path) with
      details := some [message]
      suggestions := some ["Check the JSON syntax and try again"] })
  | .loaded _ => none

end LoadedFile

end Lifecycle
