import Unjar.Shell.Machine.Channels
import Unjar.Shell.Permission

/-!
Opening files, among them the devices.
-/

namespace Unjar.Shell

/-- The descriptor of a stream. -/
def descriptorOf? : Device → Option Nat
  | .input => some 0
  | .output => some 1
  | .errors => some 2
  | _ => none

/-- The descriptor that a path stands for: a stream, or an open file that is named by its number. -/
def descriptorAt? (fs : FileSystem) (path : Text) : Option Nat :=
  match fs.stat? (pathOf path) with
  | some (.device device) => descriptorOf? device
  | _ =>
    let front := "/dev/fd/".toList
    let digits := path.drop front.length
    if front.isPrefixOf path ∧ digits ≠ [] ∧ digits.all Char.isDigit then some (valueIn 10 digits) else none

/-- What is at the other end of a file that was opened. -/
def channelAt (fs : FileSystem) (l : Location) : Channel :=
  match fs.node? l with
  | some (.directory _) => .directory l
  | some (.device .zeros) => .zeros
  | some (.device .full) => .full
  | some (.device _) => .nothing
  | _ => .file l

def Access.reads : Access → Bool
  | .read | .both => true
  | _ => false

def Access.writes : Access → Bool
  | .read => false
  | _ => true

def Access.empties : Access → Bool
  | .write | .overwrite => true
  | _ => false

/-- An open file at its start. -/
def OpenFile.fresh (channel : Channel) (access : Access) : OpenFile :=
  { channel, reads := access.reads, writes := access.writes, appends := access = .append }

/-- Opens a location that exists. -/
def reopen (access : Access) (file : OpenFile) : Eval OpenFile := do
  match file.channel with
  | .file l =>
    let fs ← getFiles
    if access.empties then setFiles (fs.fill l [])
    return .fresh (.file l) access
  | .removed data => return .fresh (.removed (if access.empties then [] else data)) access
  | channel => return .fresh channel access

/-- Opens what a path leads to. -/
def openPath (access : Access) (path : Text) : Eval (Except Fault OpenFile) := do
  match descriptorAt? (← getFiles) path with
  | some descriptor =>
    match ← fileOf descriptor with
    | some (_, file) => return .ok (← reopen access file)
    | none => return .error .notFound
  | none =>
    let fs ← getFiles
    let mask := (← getProcess).mask
    let opened : Except Fault (Location × FileSystem) :=
      if access.writes then Permission.toWrite fs mask access.empties (pathOf path)
      else (fs.openToRead (pathOf path)).map (·, fs)
    match opened with
    | .error fault => return .error fault
    | .ok (l, after) =>
      setFiles after
      return .ok (.fresh (channelAt after l) access)

/-- Why a file is not opened: one that is missing is told of in other words. -/
def reasonFor (missing : String) (fault : Fault) : String :=
  if fault = .notFound ∨ fault = .notADirectory then missing else fault.reason

def cannotOpen (path : Text) (fault : Fault) : String :=
  s!"cannot open {shown path}: " ++ reasonFor "No such file" fault

/-- What a file holds. -/
def contentAt (path : Text) : Eval (Except Fault Bytes) := do
  match ← openPath .read path with
  | .error fault => return .error fault
  | .ok file =>
    let s ← getSystem
    match file.channel with
    | .pipe number =>
      let data := (s.pipe number).content
      modifySystem (·.setPipe number { (s.pipe number) with unread := [], fresh := [], drained := true })
      return .ok data
    | _ => return s.content file endless

end Unjar.Shell
