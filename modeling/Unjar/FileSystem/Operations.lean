import Unjar.FileSystem.Access

/-!
What is done to files. What is read or run is that of its owner, who has to be let into the directories on
the way to it. Nobody is kept from looking whether something is there, and from making, changing and removing
it: what fails for the rights of a user alone does not fail here, and a program that has to be checked is
checked before (`Shell.Permission`). There is room on the disk, so a file that could be opened takes what is
written to it, and two locations never hold one file.
-/

namespace Unjar.FileSystem

/-- The mode of a new file, and of a new directory. -/
def fileMode : Nat := 0o644

def directoryMode : Nat := 0o755

/-- The bit of a directory's mode that keeps what is made in it in its group. -/
def groupBit : Nat := 0o2000

/-- The mode of a new directory: the bit for the group is handed down. -/
def modeBelow (fs : FileSystem) (parent : Location) : Nat :=
  match fs.node? parent with
  | some (.directory mode) => directoryMode ||| (mode &&& groupBit)
  | _ => directoryMode

/-- Puts a node where nothing is, told of the directory that it is put into. -/
def makeNode (fs : FileSystem) (p : Path) (node : Location → Node) : Except Fault FileSystem := do
  match ← fs.find .makeDirectory p with
  | .taken _ => .error .alreadyExists
  | .free parent name _ => .ok (fs.put (parent ++ [name]) (node parent))

def makeDirectory (fs : FileSystem) (p : Path) : Except Fault FileSystem :=
  fs.makeNode p fun parent => .directory (modeBelow fs parent)

def makeLink (fs : FileSystem) (p target : Path) : Except Fault FileSystem :=
  fs.makeNode p fun _ => .link target

def parentsFrom : Nat → Path → List Path
  | 0, p => [p]
  | fuel + 1, p =>
    match p.parent with
    | none => [p]
    | some parent => p :: parentsFrom fuel parent

/-- A path, its parent, the parent of that, and so on. -/
def lineage (p : Path) : List Path :=
  parentsFrom p.text.length p

/-- Makes the first directory of a lineage, and before it those that it needs. What was made stays,
also when a later one fails; a directory that is there already is as good as a new one. -/
def makeLineage : List Path → FileSystem → Except Fault Unit × FileSystem
  | [], fs => (.error .notFound, fs)
  | p :: ancestors, fs =>
    if p.components = [] then (.ok (), fs)
    else match fs.makeDirectory p with
      | .ok made => (.ok (), made)
      | .error .notFound =>
        match makeLineage ancestors fs with
        | (.error fault, partly) => (.error fault, partly)
        | (.ok (), prepared) =>
          match prepared.makeDirectory p with
          | .ok made => (.ok (), made)
          | .error fault => (if prepared.isDirectory p then .ok () else .error fault, prepared)
      | .error fault => (if fs.isDirectory p then .ok () else .error fault, fs)

def makeDirectories (fs : FileSystem) (p : Path) : Except Fault Unit × FileSystem :=
  makeLineage (lineage p) fs

/-- Opens a file for reading. Directories can be opened, but not read. -/
def openToRead (fs : FileSystem) (p : Path) : Except Fault Location := do
  let l ← fs.locateAdmitted .use p
  if fs.node? l = some (.device .terminal) then .error .noDevice
  else if fs.permits readBit l then return l
  else .error .permissionDenied

/-- What is read from an opened file. A device that has no end is read as one that has nothing. -/
def contents (fs : FileSystem) (l : Location) : Except Fault Bytes :=
  match fs.node? l with
  | some (.file _ data) => .ok data
  | some (.directory _) => .error .isADirectory
  | some _ => .ok []
  | none => .error .notFound

/-- The content of a file that its owner may run. -/
def executable (fs : FileSystem) (p : Path) : Except Fault Bytes := do
  match fs.node? (← fs.locateAdmitted .use p) with
  | some (.file mode data) => if allows mode searchBit then return data else throw .permissionDenied
  | _ => throw .permissionDenied

def mayRun (fs : FileSystem) (p : Path) : Bool :=
  match fs.executable p with
  | .ok _ => true
  | .error _ => false

/-- The mode of a file whose content was changed: it stops lending its owner's rights, and its group's
unless it could not lend them anyway. -/
def modeAfterWriting (mode : Nat) : Nat :=
  mode &&& if mode &&& 0o010 = 0 then 0o3777 else 0o1777

/-- Opens a file for writing. It is made with a mode if it is not there, and emptied if it is and that is
asked for. -/
def openFile (fs : FileSystem) (newMode : Nat) (empties : Bool) (p : Path) :
    Except Fault (Location × FileSystem) := do
  match ← fs.find .openFile p with
  | .free _ _ true => .error .isADirectory
  | .free parent name false => .ok (parent ++ [name], fs.put (parent ++ [name]) (.file newMode []))
  | .taken l =>
    match fs.node? l with
    | some (.file mode _) => .ok (l, if empties then fs.put l (.file (modeAfterWriting mode) []) else fs)
    | some (.device .terminal) => .error .noDevice
    | some (.device _) => .ok (l, fs)
    | _ => .error .isADirectory

/-- Opens a file for writing: emptied if it is there, made if it is not. -/
def openToWrite (fs : FileSystem) (p : Path) : Except Fault (Location × FileSystem) :=
  fs.openFile fileMode true p

/-- What is left of a file that was opened when it has taken what is written to it. Nothing written changes
nothing but the content. -/
def fill (fs : FileSystem) (l : Location) (data : Bytes) : FileSystem :=
  match fs.node? l with
  | some (.file mode _) => fs.put l (.file (if data = [] then mode else modeAfterWriting mode) data)
  | _ => fs

/-- Writes to an opened file. -/
def write (fs : FileSystem) (l : Location) (data : Bytes) : Except Fault FileSystem :=
  if fs.node? l = some (.device .full) ∧ data ≠ [] then .error .noSpace else .ok (fs.fill l data)

def writeFile (fs : FileSystem) (p : Path) (data : Bytes) : Except Fault FileSystem := do
  let (l, opened) ← fs.openToWrite p
  opened.write l data

def changeMode (fs : FileSystem) (p : Path) (mode : Nat) : Except Fault FileSystem := do
  let l ← fs.locate .use p
  match fs.node? l with
  | some (.file _ data) => return fs.put l (.file mode data)
  | some (.directory _) => return fs.put l (.directory mode)
  | _ => return fs

/-- The entries of a directory, in the order of their names. -/
def list (fs : FileSystem) (p : Path) : Except Fault (List (Bytes × Node)) := do
  let l ← fs.locateAdmitted .use p
  if ¬ fs.isDirectoryAt l then .error .notADirectory
  else if fs.permits readBit l then return fs.entriesAt l
  else .error .permissionDenied

/-- Removes a node and everything below it; a link is removed and not followed. -/
def removeAll (fs : FileSystem) (p : Path) : Except Fault FileSystem := do
  return fs.prune (← fs.locate .inspect p)

/-- Removes a directory and everything below it, or a link in its place. A file is not removed. -/
def removeTree (fs : FileSystem) (p : Path) : Except Fault FileSystem := do
  let l ← fs.locate .inspect p
  match fs.node? l with
  | some (.directory _) | some (.link _) => .ok (fs.prune l)
  | _ => .error .notADirectory

end Unjar.FileSystem
