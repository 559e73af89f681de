import Unjar.Path

namespace Unjar.ClassFile

def classExtension : Bytes := ascii "class"

def sourceExtension : Bytes := ascii "java"

/-- Files of nested and anonymous classes carry `$` in their name. The decompiler recovers them from
the outer class. -/
def isSynthetic (p : Path) : Bool :=
  match p.fileName with
  | some name => (Utf8.lossy name).contains 0x24
  | none => false

/-- The names of a path that has nothing but names, all of them UTF-8. -/
def nameParts? : List Component → Option (List Bytes)
  | [] => some []
  | .here :: rest => nameParts? rest
  | .name part :: rest => if Utf8.valid part then (nameParts? rest).map (part :: ·) else none
  | _ :: _ => none

def isDigit (octet : UInt8) : Bool :=
  0x30 ≤ octet && octet ≤ 0x39

/-- Classes for one release of the platform lie below `META-INF/versions/<number>/` and are named as
if they lay at the top. -/
def dropRelease : List Bytes → List Bytes
  | first :: second :: release :: part :: rest =>
    if first = ascii "META-INF" ∧ second = ascii "versions" ∧ release.all isDigit then part :: rest
    else first :: second :: release :: part :: rest
  | parts => parts

/-- The name of the class in a class file, from its path relative to the top of the archive. -/
def derive (p : Path) : Option Bytes :=
  if p.extension = some classExtension then
    (nameParts? (p.withExtension []).components).map fun parts =>
      Bytes.joinWith dot (dropRelease parts)
  else none

/-- Which class name the decompiler is told for each class file. -/
inductive Naming where
  | perFile
  | fixed (name : Bytes)
  deriving DecidableEq

def Naming.className : Naming → Path → Option Bytes
  | .perFile, p => derive p
  | .fixed name, _ => some name

end Unjar.ClassFile
