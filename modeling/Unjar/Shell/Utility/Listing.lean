import Unjar.Shell.Machine.Variables
import Unjar.Shell.Utility.Modes

/-!
Programs that show names, and what is known of the files that have them.
-/

namespace Unjar.Shell

def baseNameGrammar : Grammar where
  letters := "as:z"
  names := [("multiple", 'a'), ("suffix", 's'), ("zero", 'z')]
  inOrder := true

def withoutEnding (ending name : Text) : Text :=
  if ending.isSuffixOf name ∧ ending ≠ name then name.take (name.length - ending.length) else name

def showBaseName : Utility := fun self arguments => do
  let g ← baseNameGrammar.read self arguments
  let line (ending name : Text) : Eval Unit := emitLine self (withoutEnding ending (baseName name))
  match g.operands with
  | [] => missingOperand self
  | name :: rest =>
    if g.has "as" then for name in g.operands do line ((g.argument? 's').getD []) name
    else match rest with
      | [] => line [] name
      | [ending] => line ending name
      | _ :: extra :: _ => misused self 1 s!"extra operand {quoted extra}"

def showDirectoryName : Utility := fun self arguments => do
  let g ← ({ letters := "z", names := [("zero", 'z')] } : Grammar).read self arguments
  if g.operands = [] then missingOperand self
  for name in g.operands do emitLine self (directoryName name)

def showWorkingDirectory : Utility := fun self arguments => do
  let _ ← ({ letters := "LP", names := [("logical", 'L'), ("physical", 'P')] } : Grammar).read self arguments
  emitLine self (locationText (← getProcess).here)

/-- The location that a path leads to, if only its last name may be missing, or any of its names. -/
def canonical? (fs : FileSystem) (mayBeMissing anyMissing : Bool) (name : Text) : Except Fault Text := do
  match fs.find .use (pathOf name) with
  | .ok (.taken l) => return locationText l
  | .ok (.free parent last _) => if mayBeMissing then return locationText (parent ++ [last]) else throw .notFound
  | .error fault =>
    if anyMissing then
      let from' := if name.head? = some '/' then [] else (locationText fs.here).splitOn '/'
      let names := (from' ++ name.splitOn '/').foldl (fun names part =>
        if part = [] ∨ part = ['.'] then names
        else if part = ['.', '.'] then names.dropLast else names ++ [part]) ([] : List Text)
      return '/' :: List.intercalate ['/'] names
    else throw fault

def linkTargetGrammar : Grammar where
  letters := "femnqsvz"
  names := [("canonicalize", 'f'), ("canonicalize-existing", 'e'), ("canonicalize-missing", 'm'),
    ("no-newline", 'n'), ("quiet", 'q'), ("silent", 's'), ("verbose", 'v'), ("zero", 'z')]

def showLinkTarget : Utility := fun self arguments => do
  let g ← linkTargetGrammar.read self arguments
  if g.operands = [] then missingOperand self
  for name in g.operands do
    let fs ← getFiles
    let result : Except Fault Text :=
      if g.has "fem" then canonical? fs (¬ g.has "e") (g.has "m") name
      else match fs.locateAdmitted .inspect (pathOf name) with
        | .error fault => .error fault
        | .ok l =>
          match fs.node? l with
          | some (.link target) => .ok (ofOctets target.text)
          | _ => .error (.other "Invalid argument")
    match result with
    | .ok text =>
      if g.has "n" ∧ g.operands.length = 1 then emit self (toOctets text) else emitLine self text
    | .error fault =>
      if g.has "v" then complain self s!"{nameText name}: {fault.reason}"
      setStatus 1

def showRealPath : Utility := fun self arguments => do
  let g ← ({ letters := "emsqLPz", names := [("canonicalize-existing", 'e'), ("canonicalize-missing", 'm'),
    ("strip", 's'), ("no-symlinks", 's'), ("quiet", 'q')] } : Grammar).read self arguments
  if g.operands = [] then missingOperand self
  for name in g.operands do
    match canonical? (← getFiles) (¬ g.has "e") (g.has "m") name with
    | .ok text => emitLine self text
    | .error fault =>
      if g.has "q" then setStatus 1 else fails self s!"{nameText name}: {fault.reason}"

def listGrammar : Grammar where
  letters := "aA1dRFprlhtSUinsgkLcufxCmQbNGo"
  names := [("all", 'a'), ("almost-all", 'A'), ("directory", 'd'), ("recursive", 'R'), ("classify", 'F'),
    ("reverse", 'r')]
  status := 2

/-- How directories are listed. -/
structure ListManner where
  self : Text
  showsHidden : Bool := false
  showsDots : Bool := false
  recursive : Bool := false
  backwards : Bool := false
  marksKinds : Bool := false
  marksDirectories : Bool := false

namespace ListManner

def marked (m : ListManner) (name : Text) (node : Option Node) : Text :=
  name ++ match node with
    | some (.directory _) => if m.marksKinds ∨ m.marksDirectories then ['/'] else []
    | some (.link _) => if m.marksKinds then ['@'] else []
    | some (.file mode _) => if m.marksKinds ∧ mode &&& 0o111 ≠ 0 then ['*'] else []
    | _ => []

def ordered (m : ListManner) {α : Type} (entries : List α) : List α :=
  if m.backwards then entries.reverse else entries

/-- Lists a directory, and those in it if that is asked for. -/
def list (m : ListManner) : Nat → Bool → Bool → Text → Location → Eval Unit
  | 0, _, _, _, _ => return
  | fuel + 1, isFirst, hasHeading, name, l => do
    let fs ← getFiles
    unless isFirst do emitLine m.self []
    if hasHeading then emitLine m.self (name ++ [':'])
    let dots := if m.showsDots then [(ascii ".", Node.directory 0), (ascii "..", .directory 0)] else []
    let entries := (fs.entriesAt l).filter fun entry => m.showsHidden || entry.1.head? ≠ some dot
    for (entry, node) in m.ordered (dots ++ entries) do emitLine m.self (m.marked (ofOctets entry) (some node))
    if m.recursive then
      for (entry, node) in m.ordered entries do
        if node.isDirectory then list m fuel false true (childOf name (ofOctets entry)) (l ++ [entry])

end ListManner

def listDirectories : Utility := fun self arguments => do
  let g ← listGrammar.read self arguments
  let m : ListManner := {
    self
    showsHidden := g.has "aA"
    showsDots := g.has "a"
    recursive := g.has "R"
    backwards := g.has "r"
    marksKinds := g.has "F"
    marksDirectories := g.has "p" }
  let names := if g.operands = [] then [['.']] else m.ordered (Bytes.sortBy toOctets g.operands)
  let fs ← getFiles
  let mut directories := []
  let mut isFirst := true
  for name in if g.operands = [] then [['.']] else g.operands do
    if let .error fault := fs.locateAdmitted .use (pathOf name) then
      unless (fs.locateAdmitted .inspect (pathOf name)).toBool do
        complain self s!"cannot access {quoted name}: {fault.reason}"
        setStatus 2
  for name in names do
    match fs.locateAdmitted .use (pathOf name), fs.locateAdmitted .inspect (pathOf name) with
    | .ok l, inspected =>
      if fs.isDirectoryAt l ∧ ¬ g.has "d" then directories := directories ++ [(name, l)]
      else
        emitLine self (m.marked name (inspected.toOption.bind fs.node?))
        isFirst := false
    | .error _, .ok l =>
      emitLine self (m.marked name (fs.node? l))
      isFirst := false
    | .error _, .error _ => pure ()
  for (name, l) in directories do
    if ((fs.node? l).map modeOf).any fun mode => ¬ FileSystem.allows mode FileSystem.readBit then
      complain self s!"cannot open directory {quoted name}: {Fault.reason .permissionDenied}"
      setStatus 2
    else
      m.list (fs.nodes.length + 1) isFirst (m.recursive || names.length > 1) name l
      isFirst := false

/-- What a letter of a format stands for. -/
def statusField (name : Text) (node : Node) : Char → String
  | 'n' => shown name
  | 'N' => match node with
    | .link target => s!"{quoted name} -> {quoted (ofOctets target.text)}"
    | _ => quoted name
  | 'a' => String.ofList (Nat.toDigits 8 (modeOf node))
  | 'A' => (match node with
    | .directory _ => "d"
    | .link _ => "l"
    | .device _ => "c"
    | .file .. => "-") ++ modeLetters (modeOf node)
  | 'f' => String.ofList (Nat.toDigits 16 (modeOf node + match node with
    | .directory _ => 0o40000
    | .link _ => 0o120000
    | .device _ => 0o20000
    | .file .. => 0o100000))
  | 's' => match node with
    | .file _ data => toString data.length
    | .link target => toString target.text.length
    | .directory _ => "4096"
    | .device _ => "0"
  | 'F' => match node with
    | .directory _ => "directory"
    | .link _ => "symbolic link"
    | .device _ => "character special file"
    | .file _ data => if data = [] then "regular empty file" else "regular file"
  | 'h' => "1"
  | '%' => "%"
  | _ => "?"

/-- A format with its fields filled in. With `escapes` a backslash has a meaning. -/
def statusText (name : Text) (node : Node) (escapes : Bool) : Text → Text
  | '%' :: letter :: rest => (statusField name node letter).toList ++ statusText name node escapes rest
  | '\\' :: 'n' :: rest =>
    if escapes then '\n' :: statusText name node escapes rest
    else '\\' :: 'n' :: statusText name node escapes rest
  | '\\' :: 't' :: rest =>
    if escapes then '\t' :: statusText name node escapes rest
    else '\\' :: 't' :: statusText name node escapes rest
  | c :: rest => c :: statusText name node escapes rest
  | [] => []

def showStatus : Utility := fun self arguments => do
  let g ← ({ letters := "c:Lft", names := [("format", 'c'), ("printf", 'p'), ("dereference", 'L')] } : Grammar).read
    self arguments
  if g.operands = [] then missingOperand self
  for name in g.operands do
    let fs ← getFiles
    match fs.locateAdmitted (if g.has "L" then .use else .inspect) (pathOf name) with
    | .error fault => fails self s!"cannot statx {quoted name}: {fault.reason}"
    | .ok l =>
      if let some node := fs.node? l then
        emitLine self (statusText name node false ((g.argument? 'c').getD "%n".toList))

end Unjar.Shell
