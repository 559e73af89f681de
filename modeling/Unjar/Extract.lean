import Unjar.Archive.Content
import Unjar.Path.Inside
import Unjar.World

namespace Unjar

inductive ExtractError where
  | openFailed (archive : Path) (cause : Archive.ZipError)
  | readEntry (index : Nat) (cause : Archive.ZipError)
  | pathEscape (entry : Bytes) (resolved : Path)
  | write (path : Path) (cause : Fault)
  deriving DecidableEq

def ExtractError.message : ExtractError → String
  | openFailed archive cause => s!"failed to open archive '{archive.display}': {cause.message}"
  | readEntry index cause => s!"failed to read archive entry #{index}: {cause.message}"
  | pathEscape entry resolved =>
    s!"illegal file path: entry '{Utf8.display entry}' resolves to '{resolved.display}'"
  | write path cause => s!"failed to extract '{path.display}': {cause.message}"

def Archive.ZipError.causes : Archive.ZipError → List String
  | .unreadable fault => [fault.message]
  | _ => []

/-- What an error goes back to, outermost first. -/
def ExtractError.causes : ExtractError → List String
  | openFailed _ cause | readEntry _ cause => cause.message :: cause.causes
  | pathEscape .. => []
  | write _ cause => [cause.message]

namespace Extract

/-- The bits a stored mode may set; the kind of node is not among them. -/
def permissions (mode owner : Nat) : Nat :=
  (mode &&& 0o7777) ||| owner

/-- Directories stay open to their owner, so that the tree can be filled and removed again. -/
def directoryOwner : Nat := 0o700

def fileOwner : Nat := 0o600

/-- Sets a stored mode, if there is one. -/
def applyMode (path : Path) (mode : Option Nat) (owner : Nat) : Task ExtractError Unit :=
  match mode with
  | none => return
  | some mode => Task.change fun fs =>
      (fs.changeMode path (permissions mode owner)).mapError (.write path)

def makeDirectory (path : Path) (mode : Option Nat) : Task ExtractError Unit := do
  (Task.attempt fun fs => fs.makeDirectories path).withError (.write path)
  applyMode path mode directoryOwner

def makeFile (path : Path) (mode : Option Nat) : Task ExtractError Location := do
  let l ← Task.attempt fun fs =>
    match fs.openToWrite path with
    | .ok (l, opened) => (.ok l, opened)
    | .error fault => (.error (.write path fault), fs)
  applyMode path mode fileOwner
  return l

/-- Unpacks one entry of the archive that lies at `jar`. -/
def entry (jar : Location) (dest : Path) (index : Nat) (r : Archive.Record) : Task ExtractError Unit := do
  let start ← Task.query fun fs => do
    let image ← (fs.contents jar).mapError fun fault => .readEntry index (.unreadable fault)
    (r.dataStart image).mapError (.readEntry index)
  match dest.resolveInside r.name with
  | .error resolved => throw (.pathEscape r.name resolved)
  | .ok path =>
    if r.isDirectory then makeDirectory path r.mode
    else
      if let some parent := path.parent then makeDirectory parent none
      let l ← makeFile path r.mode
      let image ← Task.query fun fs => (fs.contents jar).mapError (.write path)
      let (data, fault) := r.content image start
      Task.change fun fs => (fs.write l data).mapError (.write path)
      match fault with
      | some fault => throw (.write path fault)
      | none => Task.tell (.extracted path)

def entriesFrom (jar : Location) (dest : Path) : Nat → List Archive.Record → Task ExtractError Unit
  | _, [] => return
  | index, r :: rest => do
    entry jar dest index r
    entriesFrom jar dest (index + 1) rest

/-- Opens an archive: where it lies, and what it holds. -/
def openArchive (archive : Path) (fs : FileSystem) :
    Except ExtractError (Location × List Archive.Record) := do
  let unreadable := fun fault => ExtractError.openFailed archive (.unreadable fault)
  let l ← (fs.openToRead archive).mapError unreadable
  let image ← (fs.contents l).mapError unreadable
  let records ← (Archive.directory image).mapError (.openFailed archive)
  return (l, records)

end Extract

/-- Unpacks an archive into a directory, which is made if needed, and answers with the number of
entries. The first entry that fails ends it; what was unpacked until then stays. -/
def extract (archive dest : Path) : Task ExtractError Nat := do
  let (jar, records) ← Task.query (Extract.openArchive archive)
  Extract.makeDirectory dest none
  Extract.entriesFrom jar dest 0 records
  return records.length

end Unjar
