import Unjar.Decompiler
import Unjar.Launcher

namespace Unjar

/-- A decompiler that comes as a jar, and the `java` that runs it. -/
structure Tool where
  java : Path
  jar : Path
  deriving DecidableEq

namespace Tool

def programName : Bytes := ascii "java"

/-- The first `java` on a search path that may be run. -/
def java? (fs : FileSystem) (searchPath : List Path) : Option Path :=
  (searchPath.map (·.child programName)).find? fs.mayRun

/-- The tool with this jar. The jar is looked for first, and then `java`. -/
def locate (jar : Path) : Task ToolError Tool := do
  let world ← get
  if ¬ world.files.isFile jar then throw (.jarMissing jar)
  match java? world.files world.searchPath with
  | some java => return { java, jar }
  | none => throw .javaNotFound

/-- What the tool is told about a class file. -/
def arguments (tool : Tool) (file : Path) (name : Bytes) : List Bytes :=
  [ascii "-jar", tool.jar.text, file.text, name]

/-- The answer of the tool is what it wrote, if it ended well. -/
def decompiler (tool : Tool) (launch : Launcher) : Decompiler := fun file name => do
  Task.tell (.invokingDecompiler file name)
  let finished ← (launch tool.java (tool.arguments file name)).withError fun
    | .notStarted cause => .spawn tool.java cause
    | .interrupted => .interrupted
  if finished.status = 0 then return finished.output
  else throw (.exit file finished.status finished.errors)

end Tool

end Unjar
