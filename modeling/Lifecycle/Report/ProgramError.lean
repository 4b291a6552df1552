import Lifecycle.Configuration
import Lifecycle.Report.Fault

/- Failures outside of any run: a faulty configuration, or an error that nothing
   foresees. -/
namespace Lifecycle

namespace ConfigurationIssue

def line (i : ConfigurationIssue) : Text := "  - " ++ i.place ++ ": " ++ i.message

def headline : Text := "Invalid configuration"

def report : List ConfigurationIssue → Text
  | [] => headline ++ "\n\n  - (no details)"
  | issues => headline ++ "\n\n" ++ Text.join "\n" (issues.map line)

end ConfigurationIssue

/-- What keeps the program from doing its work. -/
inductive ProgramError where
  | invalidConfiguration (issues : List ConfigurationIssue)
  | unexpected (message : Text) (cause : Value)

namespace ProgramError

def withCause (message cause : Text) : Text := message ++ "\nCause: " ++ cause

/-- A failure in full: every fault of a configuration, or the cause. -/
def report : ProgramError → Except ConversionError Text
  | .invalidConfiguration issues => .ok (ConfigurationIssue.report issues)
  | .unexpected message cause => cause.describe?.map fun t => withCause message (t.getD "undefined")

end ProgramError

end Lifecycle
