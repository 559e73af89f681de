import Unjar.Shell.Utility.Copying
import Unjar.Shell.Utility.Editing
import Unjar.Shell.Utility.Encoding
import Unjar.Shell.Utility.Evaluating
import Unjar.Shell.Utility.Fields
import Unjar.Shell.Utility.Listing
import Unjar.Shell.Utility.Making
import Unjar.Shell.Utility.Matching
import Unjar.Shell.Utility.Ordering
import Unjar.Shell.Utility.Showing
import Unjar.Shell.Utility.Sizing
import Unjar.Shell.Utility.Telling

/-!
The programs that every system has, by their names.
-/

namespace Unjar.Shell

def utilities : List (String × Utility) :=
  [("base64", encodeOctets), ("basename", showBaseName), ("cat", concatenate), ("chmod", changeModes),
    ("cmp", compareOctets), ("comm", compareColumns), ("cp", copy), ("cut", cutFields), ("dd", copyBlocks),
    ("dirname", showDirectoryName), ("echo", echoLine), ("egrep", showMatchesOf 'E'), ("expr", evaluateTerms),
    ("false", doNothing 1), ("fgrep", showMatchesOf 'F'), ("fold", foldLines), ("grep", showMatches),
    ("head", showFront), ("kill", killProcesses), ("link", linkFile), ("ln", makeLinks), ("ls", listDirectories),
    ("mkdir", makeDirectories), ("mktemp", makeTemporary), ("mv", move), ("nl", numberLines), ("od", showOctets),
    ("paste", pasteLines), ("printenv", showEnvironment), ("printf", printText), ("pwd", showWorkingDirectory),
    ("readlink", showLinkTarget), ("realpath", showRealPath), ("rev", reverseChars), ("rm", remove),
    ("rmdir", removeDirectories), ("sed", editLines), ("seq", countThrough), ("sleep", sleep), ("sort", sortLines),
    ("stat", showStatus), ("sync", doNothing 0), ("tac", reverseLines), ("tail", showBack), ("tee", copyToFiles),
    ("test", testCondition false), ("[", testCondition true), ("touch", touch), ("tr", translate),
    ("true", doNothing 0), ("truncate", resizeFiles), ("uniq", showUnique), ("unlink", unlinkFile),
    ("wc", countUp), ("yes", repeatLine)]

end Unjar.Shell
