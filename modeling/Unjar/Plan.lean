import Unjar.ClassFile.Name
import Unjar.CommandLine.Arguments
import Unjar.World

namespace Unjar

/-- What a run is to do. -/
structure Plan where
  jar : Path
  out : Path
  naming : ClassFile.Naming
  deriving DecidableEq

inductive PlanError where
  | archiveMissing (jar : Path)
  | archiveNotFile (jar : Path)
  | reuseWithoutClass
  deriving DecidableEq

def PlanError.message : PlanError → String
  | archiveMissing jar => s!"jar file '{jar.display}' does not exist"
  | archiveNotFile jar => s!"jar file '{jar.display}' is not a regular file"
  | reuseWithoutClass => "--reuse-class-name needs a CLASS argument"

namespace Plan

/-- A plan for an archive that is there, every class under its own name. -/
def make (fs : FileSystem) (jar out : Path) : Except PlanError Plan :=
  if ¬ fs.has jar then .error (.archiveMissing jar)
  else if ¬ fs.isFile jar then .error (.archiveNotFile jar)
  else .ok { jar, out, naming := .perFile }

/-- A class name is of use only if it is to be reused. -/
def namingOf (className : Option Bytes) (reuse : Bool) : Task PlanError ClassFile.Naming :=
  match className, reuse with
  | some name, true => return .fixed name
  | none, true => throw .reuseWithoutClass
  | some name, false => do
    Task.tell (.ignoringClassName name)
    return .perFile
  | none, false => return .perFile

def ofArguments (a : CommandLine.Arguments) : Task PlanError Plan := do
  let naming ← namingOf a.className a.reuseClassName
  let plan ← Task.query fun fs => make fs a.jar a.out
  return { plan with naming }

end Plan

end Unjar
