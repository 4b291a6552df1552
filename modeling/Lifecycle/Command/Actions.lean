import Lifecycle.Action
import Lifecycle.Report.Result

/- The command that lists the actions. -/
namespace Lifecycle.Command

def actions : CommandResult :=
  .success (some { Output.ofMessage (Text.ofNat Action.all.length ++ " actions available") with
    details := some (Action.all.map Action.name) })

end Lifecycle.Command
