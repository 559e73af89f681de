import Unjar.ClassFile.Name
import Unjar.World

/-!
The files below a directory: a directory before what is in it, siblings in the order of their names.
A directory is listed when it is entered, so what is done with a file can change which files are
still to come.
-/

namespace Unjar

structure WalkError where
  directory : Path
  cause : Fault
  deriving DecidableEq

def WalkError.message (e : WalkError) : String :=
  s!"failed to read directory '{e.directory.display}'"

def WalkError.causeMessage (e : WalkError) : String :=
  s!"IO error for operation on {e.directory.display}: {e.cause.message}"

def WalkError.causes (e : WalkError) : List String :=
  [e.causeMessage, e.cause.message]

namespace Walk

variable {ε α : Type}

/-- A file that was met, or a directory that could not be read. -/
abbrev Item := Except WalkError Path

/-- Folds over the files of a directory and of those below it. A path grows by an octet at least
from a directory to the next, so the longest path bounds the depth. -/
def below (visit : α → Item → Task ε α) : Nat → Path → α → Task ε α
  | 0, directory, soFar => visit soFar (.error ⟨directory, .nameTooLong⟩)
  | depth + 1, directory, soFar => do
    match (← Task.files).list directory with
    | .error fault => visit soFar (.error ⟨directory, fault⟩)
    | .ok entries => entries.foldlM (fun soFar (name, node) => do
        let path := directory.child name
        if node.isDirectory then below visit depth path soFar
        else if ClassFile.isSynthetic path then return soFar
        else visit soFar (.ok path)) soFar

/-- Folds over the files below a root. A root that is a link is followed; a root that is no directory
has nothing below it. -/
def fold (visit : α → Item → Task ε α) (root : Path) (init : α) : Task ε α := do
  let fs ← Task.files
  match fs.locateAdmitted .inspect root with
  | .error fault => visit init (.error ⟨root, fault⟩)
  | .ok l =>
    match fs.node? l with
    | some (.directory _) => below visit pathMax root init
    | some (.link _) =>
      match fs.locateAdmitted .use root with
      | .error fault => visit init (.error ⟨root, fault⟩)
      | .ok target => if fs.isDirectoryAt target then below visit pathMax root init else return init
    | _ => return init

end Walk

/-- The files below a root as they are now. -/
def walk (root : Path) : Task ε (List Walk.Item) :=
  Walk.fold (fun found item => return found ++ [item]) root []

end Unjar
