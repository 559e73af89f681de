import Unjar.Shell.Utility.Basic

/-!
Programs that remove files.
-/

namespace Unjar.Shell

/-- Takes away a location and everything below it. Who has a file open keeps what it held. -/
def takeAway (l : Location) : Eval Unit :=
  modifySystem fun s =>
    let detached (file : OpenFile) : OpenFile :=
      match file.channel with
      | .file at' =>
        if l.isPrefixOf at' then { file with channel := .removed ((s.files.contents at').toOption.getD []) } else file
      | _ => file
    { s with
      opened := s.opened.map fun (id, file) => (id, detached file)
      files := s.files.prune l }

/-- How things are removed. -/
structure RemovalManner where
  self : Text
  verbose : Bool := false

namespace RemovalManner

def removeOne (r : RemovalManner) (name : Text) (l : Location) (kind : String) : Eval Unit := do
  if Permission.mayRemove (← getFiles) l then
    takeAway l
    if r.verbose then emitLine r.self s!"removed {kind}{quoted name}".toList
  else cannot r.self "cannot remove" name .permissionDenied

/-- Removes a directory with everything in it, as far as that can be done. -/
def removeBelow (r : RemovalManner) : Nat → Text → Location → Eval Unit
  | 0, _, _ => return
  | fuel + 1, name, l => do
    let fs ← getFiles
    match fs.node? l with
    | some (.directory mode) =>
      let entries := fs.entriesAt l
      if entries ≠ [] ∧ ¬ FileSystem.allows mode FileSystem.readBit then
        cannot r.self "cannot remove" name .permissionDenied
      else
        for (entry, _) in entries do removeBelow r fuel (childOf name (ofOctets entry)) (l ++ [entry])
        if (← getFiles).entriesAt l = [] then r.removeOne name l "directory "
    | _ => r.removeOne name l ""

end RemovalManner

def removalGrammar : Grammar where
  letters := "dfiIrRv"
  names := [("recursive", 'r'), ("force", 'f'), ("verbose", 'v'), ("dir", 'd'), ("interactive", 'i')]

def isDotName (name : Text) : Bool := baseName name = ['.'] || baseName name = ['.', '.']

def remove : Utility := fun self arguments => do
  let g ← removalGrammar.read self arguments
  let r : RemovalManner := { self, verbose := g.has "v" }
  if g.operands = [] ∧ ¬ g.has "f" then missingOperand self
  for name in g.operands do
    let fs ← getFiles
    match fs.findAdmitted .inspect (pathOf name) with
    | .error fault =>
      unless g.has "f" && (fault = .notFound || fault = .notADirectory) do cannot self "cannot remove" name fault
    | .ok (.free ..) => unless g.has "f" do cannot self "cannot remove" name .notFound
    | .ok (.taken l) =>
      if ¬ fs.isDirectoryAt l then r.removeOne name l ""
      else if g.has "rR" then
        if isDotName name then
          fails self s!"refusing to remove '.' or '..' directory: skipping {quoted name}"
        else r.removeBelow (fs.nodes.length + 1) name l
      else if g.has "d" then
        if fs.entriesAt l = [] then r.removeOne name l "directory " else cannot self "cannot remove" name .notEmpty
      else cannot self "cannot remove" name .isADirectory

/-- A name and the names of the directories above it. -/
def namesUpward : Nat → Text → List Text
  | 0, _ => []
  | fuel + 1, name =>
    let above := directoryName name
    if above = ['.'] ∨ above = ['/'] ∨ above = name then [name] else name :: namesUpward fuel above

def emptyRemovalGrammar : Grammar where
  letters := "pvi"
  names := [("parents", 'p'), ("verbose", 'v'), ("ignore-fail-on-non-empty", 'i')]

/-- Removes an empty directory, and tells whether it did. -/
def removeEmpty (self : Text) (verbose tolerant : Bool) (name : Text) (what : String) : Eval Bool := do
  if verbose then emitLine self s!"rmdir: removing directory, {quoted name}".toList
  let fs ← getFiles
  let refuse (fault : Fault) : Eval Bool := do
    cannot self what name fault
    return false
  match fs.locateAdmitted .inspect (pathOf name) with
  | .error fault => refuse fault
  | .ok l =>
    if ¬ fs.isDirectoryAt l then refuse .notADirectory
    else if baseName name = ['.'] then refuse (.other "Invalid argument")
    else if fs.entriesAt l ≠ [] then
      if tolerant then return false else refuse .notEmpty
    else if ¬ Permission.mayRemove fs l then refuse .permissionDenied
    else
      takeAway l
      return true

/-- Removes empty directories one after the other, up to the first that cannot be removed. -/
def removeUpward (self : Text) (verbose tolerant : Bool) : List Text → Eval Unit
  | [] => return
  | name :: above => do
    if ← removeEmpty self verbose tolerant name "failed to remove directory" then
      removeUpward self verbose tolerant above

def removeDirectories : Utility := fun self arguments => do
  let g ← emptyRemovalGrammar.read self arguments
  if g.operands = [] then missingOperand self
  for name in g.operands do
    if ← removeEmpty self (g.has "v") (g.has "i") name "failed to remove" then
      if g.has "p" then removeUpward self (g.has "v") (g.has "i") (namesUpward name.length name).tail

end Unjar.Shell
