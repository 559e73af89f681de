import Unjar.Shell.Builtin.Settings
import Unjar.Shell.Image
import Unjar.Shell.Subshell

/-!
Starting programs. A program takes the place of a process: it gets the files, the descriptors and the exported
variables, and nothing else.
-/

namespace Unjar.Shell

/-- The process that a program gets when it takes the place of another one. -/
def Process.forProgram (p : Process) (self : Text) : Process :=
  { number := p.number
    shellNumber := p.number
    self
    bindings := p.bindings.filter fun entry => entry.2.exported && entry.2.value.isSome
    traps := p.traps.filter (·.2 = [])
    descriptors := p.descriptors
    here := p.here
    way := p.way
    mask := p.mask }

/-- The command line of a shell. -/
structure ShellLine where
  /-- Whether the first operand is a script itself. -/
  isText : Bool := false
  /-- Whether the script is read from the standard input. -/
  fromInput : Bool := false
  /-- What is done to options: a letter or a name, set or not. -/
  changes : List (Bool × Sum Char (Option Text)) := []
  operands : List Text := []

namespace ShellLine

/-- The letters of one word of options. -/
def takeLetters (isOn : Bool) : ShellLine → Text → List Text → ShellLine × List Text
  | l, [], rest => (l, rest)
  | l, 'c' :: letters, rest => takeLetters isOn { l with isText := true } letters rest
  | l, 's' :: letters, rest => takeLetters isOn { l with fromInput := true } letters rest
  | l, 'l' :: letters, rest => takeLetters isOn l letters rest
  | l, 'o' :: letters, rest =>
    takeLetters isOn { l with changes := l.changes ++ [(isOn, .inr rest.head?)] } letters rest.tail
  | l, letter :: letters, rest =>
    takeLetters isOn { l with changes := l.changes ++ [(isOn, .inl letter)] } letters rest

def ofWords : Nat → ShellLine → List Text → ShellLine
  | 0, l, _ | _, l, [] => l
  | fuel + 1, l, word :: rest =>
    match word with
    | ['-'] | ['-', '-'] => { l with operands := rest }
    | sign :: letters =>
      if (sign = '-' ∨ sign = '+') then
        let (l, rest) := l.takeLetters (sign = '-') letters rest
        ofWords fuel l rest
      else { l with operands := word :: rest }
    | [] => { l with operands := word :: rest }

end ShellLine

/-- What a shell knows from the start besides what it is given. -/
def initialVariables (p : Process) (parent : Nat) (way : Text) : Process :=
  let given (p : Process) (name : String) (value : Text) : Process :=
    if (p.value? name.toList).isSome then p else p.put name.toList { value := some value }
  let set' (p : Process) (name : String) (value : Text) (exported : Bool) : Process :=
    p.put name.toList { value := some value, exported }
  let p := { p with bindings := p.bindings.filter fun entry => isName entry.1 }
  let p := given (set' p "IFS" defaultSeparators false) "PATH" defaultSearchPath
  let p := given (given (given p "PS1" "$ ".toList) "PS2" "> ".toList) "PS4" "+ ".toList
  set' (set' (set' p "OPTIND" ['1'] false) "PPID" (decimalOf parent) false) "PWD" way true

section Programs

-- Runs a command; what it yields may be tested, so that a failure is no reason to stop.
variable (runCommand : (tested : Bool) → Command → Eval Unit)

/-- The text of a script as it is read. -/
def scriptText (data : Bytes) : Text := ofOctets (data.filter (· ≠ 0))

/-- Runs a shell in the place of the process at hand. -/
def runShell (words : List Text) : Eval Unit := do
  let self := words.headD []
  let m ← get
  let p := m.process.forProgram self
  let parent := (m.system.running.tail.head?).getD m.system.starter
  let isHere (way : Text) : Bool :=
    way.head? = some '/' && (m.files.locate .use (pathOf way)).toOption = some p.here
  let way := ((p.value? "PWD".toList).filter isHere).getD (locationText p.here)
  modifyProcess fun _ => initialVariables { p with way } parent way
  let l := ShellLine.ofWords (words.length + 1) {} words.tail
  for (isOn, option) in l.changes do
    match option with
    | .inl letter => setOption isOn letter
    | .inr name => setNamedOption isOn name
  match l.isText, l.operands with
  | true, [] => failWith "-c requires an argument"
  | true, text :: rest => do
    modifyProcess fun p => { p with self := rest.headD self, arguments := rest.tail }
    runText runCommand false false text
  | false, file :: arguments =>
    if l.fromInput then
      modifyProcess fun p => { p with arguments := file :: arguments }
      fromInput
    else
      match ← openPath .read file with
      | .error fault => failWith (cannotOpen file fault)
      | .ok opened =>
        modifyProcess fun p => { p with self := file, arguments }
        let data := ((← getSystem).content opened endless).toOption.getD []
        runText runCommand true false (scriptText data)
  | false, [] => fromInput
where
  /-- Runs what the standard input holds. -/
  fromInput : Eval Unit := do
    modifyProcess fun p => { p with options := 's' :: p.options }
    let data := (← readAll 0).toOption.getD []
    runText runCommand true false (scriptText data)

/-- So many programs may take one another's place. -/
def replacementsMax : Nat := 1000

mutual

/-- Runs a program in the place of the process at hand. -/
def runImage : Nat → Image → Eval Unit
  | 0, _ => throw .exhausted
  | fuel + 1, image => do
    let words := image.words.map ofOctets
    let self := words.headD []
    match image.program with
    | .shell => runShell runCommand words
    | .utility run => do
      modifyProcess (·.forProgram self)
      run self words.tail
      heedWaiting
    | .starter run => do
      modifyProcess (·.forProgram self)
      run { replace := replaceProcess fuel none, child := inChild runCommand false id } self words.tail
      heedWaiting

/-- Runs a program that is searched for in the place of the process at hand, or tells why that cannot be.
A file that does not say what runs it is a script for the shell. -/
def replaceProcess : Nat → Option (List Path) → List Text → Eval Fault
  | 0, _, _ => throw .exhausted
  | fuel + 1, searchPath?, words => do
    let p ← getProcess
    let name := words.headD []
    match load (← getFiles) (searchPath?.getD p.searchPath) (pathOf name) (words.map toOctets) with
    | .error fault => return fault
    | .ok (.image image) =>
      runImage fuel image
      throw (.exit (← getProcess).status)
    | .ok (.plainFile file) =>
      runShell runCommand ("/bin/sh".toList :: ofOctets file.text :: words.tail)
      throw (.exit (← getProcess).status)

end

/-- The shell lets a program take its place, and tells why if that cannot be. -/
def executeProgram (searchPath : List Path) (words : List Text) : Eval Unit := do
  let name := words.headD []
  let fault ← replaceProcess runCommand replacementsMax (some searchPath) words
  let isMissing := fault = .notFound ∨ fault = .notADirectory
  let reason := if isMissing then "not found" else fault.reason
  warn s!"{shown name}: {reason}"
  let status := if isMissing ∨ fault = .tooManyLinks ∨ fault = .nameTooLong then 127 else 126
  throw (.exit status)

/-- Why the shell does not even try to start a program: none of the directories has a file of that name. -/
def missingProgram? (fs : FileSystem) (searchPath : List Path) (name : Text) : Option String :=
  if name.contains '/' then none
  else
    let candidates := searchPath.map (·.child (toOctets name))
    if candidates.any fun p => match (fs.locateAdmitted .use p).toOption.bind fs.node? with
        | some (.file ..) => true
        | _ => false
      then none
    else if candidates.any fun p => match fs.locateAdmitted .use p with
        | .ok _ => true
        | .error fault => fault ≠ .notFound ∧ fault ≠ .notADirectory
      then some (Fault.reason .permissionDenied)
    else some "not found"

/-- Runs a program, and waits for its end. Jobs that end in the meantime are finished first. -/
def runProgram (inPlace : Bool) (searchPath : List Path) (words : List Text) : Eval Unit := do
  let name := words.headD []
  match missingProgram? (← getFiles) searchPath name with
  | some reason =>
    warn s!"{shown name}: {reason}"
    setStatus 127
  | none =>
    elapse programTime
    finishDueJobs runCommand
    if inPlace then executeProgram runCommand searchPath words
    else asChild runCommand id (executeProgram runCommand searchPath words)
    finishDueJobs runCommand

end Programs

end Unjar.Shell
