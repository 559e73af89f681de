import Unjar.ClassFile.Output
import Unjar.Decompiler

namespace Unjar

inductive MapError where
  | outsideStaging (file staging : Path)
  | makeDirectory (directory : Path) (cause : Fault)
  deriving DecidableEq

def MapError.message : MapError → String
  | outsideStaging file staging =>
    s!"'{file.display}' is not inside the staging directory '{staging.display}'"
  | makeDirectory directory cause =>
    s!"unable to create output directory '{directory.display}': {cause.message}"

def MapError.causes : MapError → List String
  | outsideStaging .. => []
  | makeDirectory _ cause => [cause.message]

inductive ProduceError where
  | decompile (classFile : Path) (cause : ToolError)
  | write (out : Path) (cause : Fault)
  | copy (source target : Path) (cause : Fault)
  deriving DecidableEq

def ProduceError.message : ProduceError → String
  | decompile classFile _ => s!"unable to decompile '{classFile.display}'"
  | write out cause => s!"unable to write output to '{out.display}': {cause.message}"
  | copy source target cause =>
    s!"unable to copy '{source.display}' to '{target.display}': {cause.message}"

def ProduceError.causes : ProduceError → List String
  | decompile _ cause => cause.message :: cause.causes
  | write _ cause | copy _ _ cause => [cause.message]

inductive Produced where
  | skipped
  | decompiled
  | copied
  deriving DecidableEq

def Summary.record (s : Summary) : Produced → Summary
  | .skipped => { s with skipped := s.skipped + 1 }
  | .decompiled => { s with decompiled := s.decompiled + 1 }
  | .copied => { s with copied := s.copied + 1 }

def ensureDirectory (directory : Path) : Task MapError Unit :=
  (Task.attempt fun fs => fs.makeDirectories directory).withError (.makeDirectory directory)

/-- The output path of a staged file. The directory it will lie in is made if it is missing. -/
def prepareOutput (file staging out : Path) : Task MapError Path := do
  match ClassFile.outputPath file staging out with
  | none => throw (.outsideStaging file staging)
  | some target =>
    match target.parent with
    | none => return target
    | some directory =>
      if (← Task.files).isDirectory directory then return target
      else
        Task.tell (.creatingDirectory directory)
        ensureDirectory directory
        return target

/-- Copies a file octet by octet. The target is emptied before the source is read. -/
def copyFile (source target : Path) : Task Fault Unit := do
  let input ← Task.query fun fs => fs.openToRead source
  let output ← Task.attempt fun fs =>
    match fs.openToWrite target with
    | .ok (l, opened) => (.ok l, opened)
    | .error fault => (.error fault, fs)
  let data ← Task.query fun fs => fs.contents input
  Task.change fun fs => fs.write output data

/-- Makes the output of one staged file, unless it is there already: source text from the
decompiler for an output `.java`, and a copy for any other. -/
def produce (d : Decompiler) (file : Path) (name : Bytes) (out : Path) : Task ProduceError Produced := do
  if (← Task.files).has out then
    Task.tell (.outputExists out)
    return .skipped
  else if out.extension = some ClassFile.sourceExtension then
    let source ← (d.ask file name).withError (.decompile file)
    Task.change fun fs => (fs.writeFile out source).mapError (.write out)
    Task.tell (.decompiled name out)
    return .decompiled
  else
    (copyFile file out).withError (.copy file out)
    Task.tell (.copied out)
    return .copied

end Unjar
