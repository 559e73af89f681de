import Unjar.Program.SingleClass
import Unjar.Program.WholeArchive
import Unjar.Shell.Launch

/-!
The command line. The files a program may need are read into memory, the program is run on them, and
what it made is written back.
-/

namespace Unjar.Outside

abbrev Execute := Launcher → List Bytes → World → Program.Ending × World

def octetsOf (text : String) : Bytes :=
  text.toUTF8.toList

def directory : Node := .directory FileSystem.directoryMode

/-- What lies at a path. A file counts as one that may be run. -/
def node? (p : Path) : IO (Option Node) := do
  try
    let data ← IO.FS.readBinFile p.display
    return some (.file 0o755 data.toList)
  catch
    | .inappropriateType .. => return some directory
    | _ => return none

/-- The file system with a node at a path, and directories above it. -/
def install (fs : FileSystem) (p : Path) (node : Node) : FileSystem :=
  let fs := match p.parent with
    | some parent => (fs.makeDirectories parent).2
    | none => fs
  match fs.find .makeDirectory p with
  | .ok (.free parent name _) => fs.put (parent ++ [name]) node
  | _ => fs

def installAll (fs : FileSystem) (paths : List Path) : IO FileSystem :=
  paths.foldlM (fun fs p => do
    match ← node? p with
    | some node => return install fs p node
    | none => return fs) fs

/-- The paths that a command line may be about. -/
def mentioned (commandLine : List Bytes) : List Path :=
  let whole := match Program.WholeArchive.arguments commandLine with
    | .ok a => [a.jar, a.decompiler, a.out]
    | .error _ => []
  let single := match CommandLine.ClassFileArguments.parse commandLine with
    | .ok a => [⟨a.classFile⟩, a.decompiler]
    | .error _ => []
  (whole ++ single).filter (·.text ≠ [])

/-- What a program made, a directory before what is in it. -/
def made (before after : FileSystem) : List (Path × Node) :=
  let news := after.nodes.filter fun (l, node) => before.node? l ≠ some node
  let sorted := news.mergeSort fun a b => a.1.length ≤ b.1.length
  sorted.map fun (l, node) => (Path.ofComponents (.root :: l.map Component.name), node)

def write (p : Path) : Node → IO Unit
  | .directory _ => IO.FS.createDirAll p.display
  | .file _ data => IO.FS.writeBinFile p.display ⟨data.toArray⟩
  | _ => return

/-- Runs a program on what is there. Outputs that exist are found out by a first run that makes them
again. -/
def runOn (execute : Execute) (commandLine : List Bytes) (world : World) : IO Program.Ending := do
  let (_, first) := execute Shell.launch commandLine world
  let existing ← installAll world.files ((made world.files first.files).map Prod.fst)
  let (ending, last) := execute Shell.launch commandLine { world with files := existing }
  for (p, node) in made existing last.files do write p node
  return ending

def emptyWorld : IO World := do
  let here := octetsOf (toString (← IO.currentDir))
  let searchPath := searchPathOfText (octetsOf ((← IO.getEnv "PATH").getD ""))
  let temporary := octetsOf ((← IO.getEnv "TMPDIR").getD "/tmp")
  let system : FileSystem := { nodes := Shell.systemNodes, here := [] }
  let fs := [here, temporary].foldl (fun fs p => (fs.makeDirectories ⟨p⟩).2) system
  return {
    files := { fs with here := (here.splitOn slash).filter (· ≠ []) }
    searchPath
    temporary := ⟨temporary⟩ }

def execute (execute : Execute) (arguments : List String) : IO UInt32 := do
  let commandLine := ascii "unjar" :: arguments.map octetsOf
  let world ← emptyWorld
  let programs := world.searchPath.map (·.child Tool.programName)
  let files ← installAll world.files (mentioned commandLine ++ programs)
  let ending ← runOn execute commandLine { world with files }
  (← IO.getStdout).write ⟨ending.output.toArray⟩
  unless ending.complaint.isEmpty do IO.eprintln ending.complaint
  return ending.status.toUInt32

end Unjar.Outside

/-- The word `class` in front asks for a single class file. -/
def main : List String → IO UInt32
  | "class" :: arguments => Unjar.Outside.execute Unjar.Program.SingleClass.execute arguments
  | arguments => Unjar.Outside.execute Unjar.Program.WholeArchive.execute arguments
