import Lifecycle.RequestFile

/- Files by path, in the directory the program works in.

   A path is read step by step: empty steps and single dots stay where they are, two
   dots go up. The directory itself and the ones above it exist and cannot be read
   as files. -/
namespace Lifecycle

namespace WorkingDirectory

def directoryError : FileEntry :=
  .unreadable (.error "EISDIR: illegal operation on a directory, read" [("code", .text "EISDIR")])

/-- Where a path leads from the working directory: how far up, and then down which names. -/
def resolve (path : Text) : Nat × List Text :=
  (Text.splitAll (Text.unit '/') path).foldl (fun (up, names) step =>
    if step = [] ∨ step = ("." : Text) then (up, names)
    else if step = (".." : Text) then
      if names.isEmpty then (up + 1, names) else (up, names.dropLast)
    else (up, names ++ [step])) (0, [])

/-- Whether a path starts at the root of the file system. -/
def isAbsolute (path : Text) : Bool := path.head? == some (Text.unit '/')

def find (files : Files) (path : Text) : Option FileEntry :=
  match resolve path with
  | (_, []) => some directoryError
  | (0, names) => if isAbsolute path then none else Member.find? (Text.join "/" names) files
  | (_ + 1, _) => none

end WorkingDirectory

end Lifecycle
