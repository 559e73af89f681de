import Unjar.Shell.Starting.Finding
import Unjar.Shell.Starting.Gathering
import Unjar.Shell.Starting.Manner

/-!
The programs that start other programs, by their names.
-/

namespace Unjar.Shell

def starters : List (String × (Starting → Utility)) :=
  [("env", withEnvironment), ("find", findFiles), ("nice", withManner "n:"), ("nohup", withManner ""),
    ("setsid", withManner "cfw"), ("stdbuf", withManner "i:o:e:"), ("timeout", withTimeout), ("xargs", gatherArguments)]

end Unjar.Shell
