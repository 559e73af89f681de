import Unjar.Program.Ending

/-!
The program that turns an archive into a source tree.
-/

namespace Unjar.Program.WholeArchive

def manual : Manual where
  usage := "Usage: unjar [OPTIONS] --jar <JAR> [CLASS]\n"
  version := "jarsrc 0.1.0\n"

def arguments (commandLine : List Bytes) : Except CommandLine.Refusal CommandLine.Arguments :=
  CommandLine.Arguments.parse (CommandLine.normalize commandLine)

/-- All that can fail before anything is changed. -/
def prepare (commandLine : List Bytes) : Task Failure (Tool × Plan) := do
  let a ← reading (arguments commandLine)
  let tool ← (Tool.locate a.decompiler).withError .tool
  Task.tell (.javaFound tool.java)
  let plan ← (Plan.ofArguments a).withError .plan
  return (tool, plan)

def work (launch : Launcher) (commandLine : List Bytes) : Task Failure Summary := do
  let (tool, plan) ← prepare commandLine
  (run plan (tool.decompiler launch)).withError .run

/-- The command line starts with the name of the program. -/
def execute (launch : Launcher) (commandLine : List Bytes) (world : World) : Ending × World :=
  perform manual (do let _ ← work launch commandLine; return []) world

end Unjar.Program.WholeArchive
