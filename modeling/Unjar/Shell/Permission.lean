import Unjar.Shell.Machine.State

/-!
What the programs that are started may do to files. Each of the operations that change something is the one
of the file system, once it is checked that the user may get to the place and change what is there.
-/

namespace Unjar.Shell.Permission

open FileSystem

/-- Whether something can be made in a directory, or removed from it. -/
def mayChange (fs : FileSystem) (directory : Location) : Bool :=
  fs.permits writeBit directory && fs.permits searchBit directory

/-- Whether what is at a location can be taken away from there. -/
def mayRemove (fs : FileSystem) (l : Location) : Bool := l ≠ [] && mayChange fs l.dropLast

def nodeAllows (bit : Nat) : Node → Bool
  | .file mode _ | .directory mode => allows mode bit
  | _ => true

/-- Does something at the end of a path, if the user may get there and something holds of the spot. -/
def guarded {α : Type} (fs : FileSystem) (purpose : Purpose) (may : Spot → Bool) (p : Path)
    (operation : Except Fault α) : Except Fault α := do
  if may (← fs.findAdmitted purpose p) then operation else throw .permissionDenied

/-- Whether what is made or written at a spot may be. -/
def mayWrite (fs : FileSystem) : Spot → Bool
  | .taken l => fs.isDirectoryAt l || fs.permits writeBit l
  | .free parent _ slashed => slashed || mayChange fs parent

/-- The mode of something new in a directory. -/
def newMode (full mask : Nat) : Nat := full - (full &&& mask)

/-- A file that is to be written. It is made if it is missing, and emptied if that is asked for. -/
def toWrite (fs : FileSystem) (mask : Nat) (empties : Bool) (p : Path) : Except Fault (Location × FileSystem) :=
  guarded fs .openFile (mayWrite fs) p (fs.openFile (newMode 0o666 mask) empties p)

/-- Writes a whole file. -/
def write (fs : FileSystem) (mask : Nat) (p : Path) (data : Bytes) : Except Fault FileSystem := do
  let (l, opened) ← toWrite fs mask true p
  opened.write l data

/-- Puts a new node where nothing is. What is there already is in the way, whatever may be done to it. -/
def make (fs : FileSystem) (p : Path) (node : Location → Node) : Except Fault FileSystem :=
  let mayMake : Spot → Bool
    | .taken _ => true
    | .free parent _ _ => mayChange fs parent
  guarded fs .makeDirectory mayMake p (fs.makeNode p node)

def makeDirectory (fs : FileSystem) (mask : Nat) (p : Path) : Except Fault FileSystem :=
  make fs p fun parent => .directory (newMode 0o777 mask ||| (fs.modeBelow parent &&& groupBit))

def makeLink (fs : FileSystem) (p target : Path) : Except Fault FileSystem :=
  make fs p fun _ => .link target

end Unjar.Shell.Permission
