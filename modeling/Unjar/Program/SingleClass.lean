import Unjar.Program.Ending

/-!
The program that decompiles one class file.
-/

namespace Unjar.Program.SingleClass

def manual : Manual where
  usage := "Usage: unjar class [OPTIONS] <CLASS_FILE> [CLASS]\n"
  version := ""

/-- As the name of an output file this stands for the standard output. -/
def standardOutput : Bytes := ascii "-"

def outOf (a : CommandLine.ClassFileArguments) (stem : Bytes) : Bytes :=
  a.out.getD (stem ++ dot :: ClassFile.sourceExtension)

/-- Whether what is written to a path comes out of the program itself. -/
def shows (fs : FileSystem) (out : Path) : Bool :=
  fs.stat? out = some (.device .output)

/-- What is written to the standard output. -/
def work (launch : Launcher) (commandLine : List Bytes) : Task Failure Bytes := do
  let a ← reading (CommandLine.ClassFileArguments.parse commandLine)
  let file : Path := ⟨a.classFile⟩
  match file.stem with
  | none => throw .noClassName
  | some stem =>
    let tool ← (Tool.locate a.decompiler).withError .tool
    let source ← ((tool.decompiler launch).ask file (a.className.getD stem)).withError .tool
    let out := outOf a stem
    if out = standardOutput then return source
    else
      let before ← Task.files
      Task.change fun fs => (fs.writeFile ⟨out⟩ source).mapError (.write ⟨out⟩)
      return if shows before ⟨out⟩ then source else []

/-- The command line starts with the name of the program. -/
def execute (launch : Launcher) (commandLine : List Bytes) (world : World) : Ending × World :=
  perform manual (work launch commandLine) world

end Unjar.Program.SingleClass
