import Unjar.Shell.Utility.Removal

/-!
Programs that copy, move and link files.
-/

namespace Unjar.Shell

/-- The last operand, and those before it. -/
def sourcesAndTarget? (names : List Text) : Option (List Text × Text) :=
  match names.reverse with
  | target :: source :: more => some ((source :: more).reverse, target)
  | _ => none

/-- What goes where: the last operand or an option names the target. Something that goes into a directory
keeps its name. -/
def placements (self : Text) (g : Given) : Eval (List (Text × Text)) := do
  let into (directory : Text) (sources : List Text) : List (Text × Text) :=
    sources.map fun source => (source, childOf directory (baseName source))
  let fs ← getFiles
  let isDirectory (name : Text) : Bool := fs.isDirectory (pathOf name)
  let refuseTarget (kind : String) (name : Text) : Eval (List (Text × Text)) :=
    let fault := if fs.has (pathOf name) then Fault.notADirectory else .notFound
    giveUp self 1 s!"{kind} {quoted name}: {fault.reason}"
  match g.argument? 't', g.operands with
  | _, [] => misused self 1 "missing file operand"
  | some directory, sources =>
    if isDirectory directory then return into directory sources else refuseTarget "target directory" directory
  | none, names =>
    match sourcesAndTarget? names with
    | none => misused self 1 s!"missing destination file operand after {quoted (names.headD [])}"
    | some (sources, target) =>
      if g.has "T" then
        if sources.length > 1 then misused self 1 s!"extra operand {quoted target}"
        return sources.map fun source => (source, target)
      else if isDirectory target then return into target sources
      else if sources.length > 1 then refuseTarget "target" target
      else return sources.map fun source => (source, target)

/-- How things are copied. -/
structure CopyManner where
  self : Text
  mask : Nat
  recursive : Bool := false
  /-- Whether links are copied as links. -/
  keepsLinks : Bool := false
  keepsModes : Bool := false
  force : Bool := false
  verbose : Bool := false
  keepsTargets : Bool := false

namespace CopyManner

def tell (m : CopyManner) (source target : Text) : Eval Unit := do
  if m.verbose then emitLine m.self s!"{quoted source} -> {quoted target}".toList

/-- Copies what a file holds. An existing target keeps its mode, and is made anew if it cannot be written
and that is asked for. -/
def copyFile (m : CopyManner) (source target : Text) (mode : Nat) (data : Bytes) : Eval Unit := do
  let fs ← getFiles
  let isNew := ¬ (fs.locateAdmitted .use (pathOf target)).toBool
  let isDangling := isNew && (fs.locateAdmitted .inspect (pathOf target)).toBool
  let refuse (fault : Fault) : Eval Unit := cannot m.self "cannot create regular file" target fault
  if isDangling then fails m.self s!"not writing through dangling symlink {quoted target}"
  else
    let written := Permission.write fs m.mask (pathOf target) data
    let written ← match written, fs.locateAdmitted .inspect (pathOf target) with
      | .error .permissionDenied, .ok l =>
        if m.force ∧ Permission.mayRemove fs l then
          takeAway l
          pure (Permission.write (← getFiles) m.mask (pathOf target) data)
        else pure (.error .permissionDenied)
      | result, _ => pure result
    match written with
    | .error fault => refuse fault
    | .ok written =>
      setFiles written
      let mode := if m.keepsModes then mode else Permission.newMode (mode &&& 0o777) m.mask
      if isNew ∨ m.keepsModes then setFiles ((written.changeMode (pathOf target) mode).toOption.getD written)
      m.tell source target

/-- Copies a node to a place where it gets another name, and everything below it. -/
def copyNode (m : CopyManner) : Nat → Text → Location → Text → Eval Unit
  | 0, _, _, _ => return
  | fuel + 1, source, l, target => do
    let fs ← getFiles
    let isThere := (fs.locateAdmitted .inspect (pathOf target)).toBool
    match fs.node? l with
    | some (.file mode data) =>
      if fs.isDirectory (pathOf target) then
        fails m.self s!"cannot overwrite directory {quoted target} with non-directory"
      else if ¬ FileSystem.allows mode FileSystem.readBit then
        fails m.self s!"cannot open {quoted source} for reading: {Fault.reason .permissionDenied}"
      else if ¬ (m.keepsTargets ∧ isThere) then m.copyFile source target mode data
    | some (.link aim) =>
      if let some l := (fs.locateAdmitted .inspect (pathOf target)).toOption then
        if ¬ fs.isDirectoryAt l then takeAway l
      if ← changeFiles m.self "cannot create symbolic link" target fun fs =>
          Permission.makeLink fs (pathOf target) aim then m.tell source target
    | some (.directory mode) =>
      if isThere ∧ ¬ fs.isDirectory (pathOf target) then
        fails m.self s!"cannot overwrite non-directory {quoted target} with directory {quoted source}"
      else
        let isMade ← if isThere then pure true else
          let newMode := if m.keepsModes then mode else Permission.newMode (mode &&& 0o777) m.mask
          let made ← changeFiles m.self "cannot create directory" target fun fs =>
            (Permission.makeDirectory fs 0 (pathOf target)).bind (·.changeMode (pathOf target) newMode)
          if made then m.tell source target
          pure made
        if isMade then
          for (entry, _) in fs.entriesAt l do
            let name := ofOctets entry
            copyNode m fuel (childOf source name) (l ++ [entry]) (childOf target name)
    | some (.device _) => if m.recursive then return else m.copyFile source target 0o666 []
    | none => return

end CopyManner

def copyGrammar : Grammar where
  letters := "aRrpfndivuPLHTt:xls"
  names := [("recursive", 'R'), ("archive", 'a'), ("force", 'f'), ("no-clobber", 'n'), ("verbose", 'v'),
    ("no-dereference", 'P'), ("dereference", 'L'), ("no-target-directory", 'T'), ("target-directory", 't'),
    ("interactive", 'i'), ("update", 'u'), ("link", 'l'), ("symbolic-link", 's')]

def copy : Utility := fun self arguments => do
  let g ← copyGrammar.read self arguments
  let m : CopyManner := {
    self
    mask := (← getProcess).mask
    recursive := g.has "rRa"
    keepsLinks := match g.last? "PLHad" with
      | none => g.has "rR"
      | some letter => letter ≠ 'L' && letter ≠ 'H'
    keepsModes := g.has "pa"
    force := g.has "f"
    verbose := g.has "v"
    keepsTargets := g.has "n" }
  for (source, target) in ← placements self g do
    let fs ← getFiles
    match fs.locateAdmitted (if m.keepsLinks then .inspect else .use) (pathOf source) with
    | .error fault => cannot self "cannot stat" source fault
    | .ok l =>
      let there := (fs.locate (if m.keepsLinks then .inspect else .use) (pathOf target)).toOption
      if fs.isDirectoryAt l ∧ ¬ m.recursive then
        fails self s!"-r not specified; omitting directory {quoted source}"
      else if there = some l then
        fails self s!"{quoted source} and {quoted target} are the same file"
      else
        let parent := (fs.find .makeDirectory (pathOf target)).toOption.bind fun spot => match spot with
          | .free parent _ _ => some parent
          | .taken l => some l
        if fs.isDirectoryAt l ∧ (parent.any fun p => l.isPrefixOf p) then
          fails self s!"cannot copy a directory, {quoted source}, into itself, {quoted target}"
        else m.copyNode (fs.nodes.length + 1) source l target

/-- Moves a node and everything below it. Who has a file open keeps it. -/
def relocate (source target : Location) : Eval Unit := do
  takeAway target
  modifySystem fun s =>
    let moved (l : Location) : Location := if source.isPrefixOf l then target ++ l.drop source.length else l
    let followed (file : OpenFile) : OpenFile :=
      match file.channel with
      | .file l => { file with channel := .file (moved l) }
      | .directory l => { file with channel := .directory (moved l) }
      | _ => file
    { s with
      opened := s.opened.map fun (id, file) => (id, followed file)
      files := { s.files with nodes := s.files.nodes.map fun (l, node) => (moved l, node) } }

def moveGrammar : Grammar where
  letters := "finuvTt:"
  names := [("force", 'f'), ("no-clobber", 'n'), ("verbose", 'v'), ("no-target-directory", 'T'),
    ("target-directory", 't'), ("interactive", 'i'), ("update", 'u')]

def move : Utility := fun self arguments => do
  let g ← moveGrammar.read self arguments
  for (source, target) in ← placements self g do
    let fs ← getFiles
    let cannotMove (fault : Fault) : Eval Unit :=
      fails self s!"cannot move {quoted source} to {quoted target}: {fault.reason}"
    match fs.locateAdmitted .inspect (pathOf source) with
    | .error fault => cannot self "cannot stat" source fault
    | .ok l =>
      let go (place : Location) : Eval Unit := do
        if Permission.mayRemove fs l && Permission.mayRemove fs place then
          relocate l place
          if g.has "v" then emitLine self s!"renamed {quoted source} -> {quoted target}".toList
        else cannotMove .permissionDenied
      match fs.findAdmitted .makeDirectory (pathOf target) with
      | .error fault => cannotMove fault
      | .ok (.free parent name slashed) =>
        if l.isPrefixOf parent then
          fails self s!"cannot move {quoted source} to a subdirectory of itself, {quoted target}"
        else if slashed ∧ ¬ fs.isDirectoryAt l then cannotMove .notADirectory
        else go (parent ++ [name])
      | .ok (.taken there) =>
        if g.has "n" then return
        else if there = l then fails self s!"{quoted source} and {quoted target} are the same file"
        else if fs.isDirectoryAt there then
          if ¬ fs.isDirectoryAt l then
            fails self s!"cannot overwrite directory {quoted target} with non-directory"
          else if fs.entriesAt there ≠ [] then cannot self "cannot overwrite" target .notEmpty
          else if l.isPrefixOf there then
            fails self s!"cannot move {quoted source} to a subdirectory of itself, {quoted target}"
          else go there
        else if fs.isDirectoryAt l then
          fails self s!"cannot overwrite non-directory {quoted target} with directory {quoted source}"
        else go there

def linkGrammar : Grammar where
  letters := "sfnTvit:Pr"
  names := [("symbolic", 's'), ("force", 'f'), ("no-dereference", 'n'), ("no-target-directory", 'T'),
    ("verbose", 'v'), ("target-directory", 't'), ("interactive", 'i'), ("relative", 'r')]

/-- The names of links and what they lead to. -/
def linkPlacements (self : Text) (g : Given) : Eval (List (Text × Text)) := do
  match g.argument? 't', g.operands with
  | none, [source] => return [(source, baseName source)]
  | none, [source, target] =>
    let isLink := ((← getFiles).locate .inspect (pathOf target)).toOption.bind (← getFiles).node? |>.any fun node =>
      match node with
      | .link _ => true
      | _ => false
    if g.has "T" ∨ (g.has "n" ∧ isLink) then return [(source, target)] else placements self g
  | _, _ => placements self g

/-- Where a hard link is asked for the node is copied: two locations never hold one file. -/
def makeLinks : Utility := fun self arguments => do
  let g ← linkGrammar.read self arguments
  for (source, target) in ← linkPlacements self g do
    let fs ← getFiles
    let what := if g.has "s" then "failed to create symbolic link" else "failed to create hard link"
    let clear : Eval Unit := do
      if let some l := ((← getFiles).locateAdmitted .inspect (pathOf target)).toOption then
        if g.has "f" ∧ ¬ (← getFiles).isDirectoryAt l then takeAway l
    let tell : Eval Unit := do
      let arrow := if g.has "s" then "->" else "=>"
      if g.has "v" then emitLine self s!"{quoted target} {arrow} {quoted source}".toList
    if g.has "s" then
      clear
      if ← changeFiles self what target fun fs => Permission.makeLink fs (pathOf target) (pathOf source) then tell
    else
      match fs.locateAdmitted .inspect (pathOf source) with
      | .error fault => cannot self "failed to access" source fault
      | .ok l =>
        match fs.node? l with
        | some (.directory _) => fails self s!"{shown source}: hard link not allowed for directory"
        | some node =>
          if (fs.locate .inspect (pathOf target)).toOption = some l then
            if g.has "f" then fails self s!"{quoted source} and {quoted target} are the same file"
            else fails self s!"{what} {quoted target}: {Fault.reason .alreadyExists}"
          else
            clear
            if ← changeFiles self what target fun fs => Permission.make fs (pathOf target) fun _ => node then tell
        | none => return

end Unjar.Shell
