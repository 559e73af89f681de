import Unjar.Shell.Builtin.Control
import Unjar.Shell.Builtin.Directories
import Unjar.Shell.Builtin.Input
import Unjar.Shell.Builtin.Jobs
import Unjar.Shell.Builtin.Names
import Unjar.Shell.Builtin.Output
import Unjar.Shell.Builtin.Settings
import Unjar.Shell.Redirect
import Unjar.Shell.Start

/-!
What a command is once its words are known, and running it.
-/

namespace Unjar.Shell

/-- The commands of the shell that do not run others. -/
def builtins : List (String × Builtin) :=
  [(":", succeed), ("[", judgeBracketed), ("alias", defineAlias), ("bg", moveJob), ("break", leaveLoops .leaveLoop),
    ("cd", changeDirectory), ("chdir", changeDirectory), ("command", showCommand),
    ("continue", leaveLoops .nextRound), ("echo", echo), ("exit", exit), ("export", exportVariables),
    ("false", failQuietly), ("fg", moveJob), ("getopts", readOption), ("hash", rememberPlaces), ("jobs", showJobs),
    ("kill", kill), ("local", localVariables), ("printf", printFormatted), ("pwd", showDirectory),
    ("read", readLine), ("readonly", protectVariables), ("return", giveBack), ("set", configure), ("shift", shift),
    ("test", judgeCondition), ("times", showTimes), ("trap", trap), ("true", succeed), ("type", type),
    ("ulimit", limit), ("umask", changeUserMask), ("unalias", unalias), ("unset", unset)]

/-- The commands whose arguments may be assignments. -/
def assigningNames : List String := ["alias", "export", "local", "readonly"]

/-- What is behind `command` and its options, and whether the usual directories are searched; nothing if it
is only asked what a command is. -/
def behindCommand (usual : Bool) : List Text → Option (Bool × List Text)
  | [] => none
  | word :: rest =>
    match word with
    | ['-', '-'] => if rest = [] then none else some (usual, rest)
    | '-' :: letter :: letters => if (letter :: letters).all (· = 'p') then behindCommand true rest else none
    | _ => some (usual, word :: rest)

inductive Action where
  | nothing
  | builtin (name : Text)
  | function (f : Function)
  | program

/-- What a command turns out to be. -/
structure Invocation where
  action : Action
  /-- The words of the command, its name first. -/
  words : List Text
  /-- Whether the first name is one of the special commands. -/
  isSpecial : Bool := false
  /-- Whether the usual directories are searched. -/
  usualPath : Bool := false

/-- Finds out what words stand for. Behind `command` no function is meant. -/
def invocationFrom (p : Process) : Nat → Option Bool → Bool → List Text → Invocation
  | _, _, _, [] => { action := .nothing, words := [] }
  | fuel, special?, usualPath, name :: arguments =>
    let isSpecial := special?.getD (isSpecialName name)
    let words := name :: arguments
    match if special?.isNone then p.functions.lookup name else none with
    | some f => { action := .function f, words }
    | none =>
      if ¬ isBuiltinName name then { action := .program, words, usualPath, isSpecial := special?.getD false }
      else
        let asBuiltin : Invocation := { action := .builtin name, words, isSpecial }
        match fuel, if name = "command".toList then behindCommand false arguments else none with
        | fuel + 1, some (usual, inner) => invocationFrom p fuel (some isSpecial) (usualPath || usual) inner
        | _, _ => asBuiltin

def invocation (p : Process) (words : List Text) : Invocation :=
  invocationFrom p (words.length + 1) none false words

section Dispatch

-- Runs a command; what it yields may be tested, so that a failure is no reason to stop.
variable (runCommand : (tested : Bool) → Command → Eval Unit)

/-- Whether the arguments of a command may be assignments, as far as its words are known. -/
def assigns (p : Process) (fields : List Text) : Bool :=
  match (invocation p fields).action with
  | .builtin name => assigningNames.any (·.toList = name)
  | _ => false

/-- The fields of a command. An argument that is an assignment is one field where the command assigns. -/
def commandFields : List Text → List Word → Eval (List Text)
  | fields, [] => return fields
  | fields, word :: rest => do
    match if assigns (← getProcess) fields then assignment? word else none with
    | some (name, value) =>
      let value ← textOf (substitution runCommand) .assigned value
      commandFields (fields ++ [name ++ '=' :: value]) rest
    | none => commandFields (fields ++ (← fieldsOf (substitution runCommand) word)) rest

/-- Runs the body of a function with arguments of its own. -/
def callFunction (tested : Bool) (f : Function) (arguments : List Text) : Eval Unit := fun m =>
  let p := m.process
  let restored (after : Machine) : Machine :=
    { after with process := { after.process with
        arguments := p.arguments, optionPlace := p.optionPlace, loops := p.loops } }
  let inside := { p with arguments, optionPlace := {}, loops := 0 }
  match runCommand tested f.body { m with process := inside } with
  | .ok _ after => .ok () (restored after)
  | .error (.giveBack status) after =>
    .ok () (restored { after with process := { after.process with status } })
  | .error stop after => .error stop (restored after)

/-- The file that a script to be read in is in. -/
def sourceFile (name : Text) : Eval Text := do
  if name.contains '/' then return name
  let fs ← getFiles
  match ((← getProcess).searchPath.map (·.child (toOctets name))).find? fs.isFile with
  | some path => return ofOctets path.text
  | none => failWith s!"{shown name}: not found"

/-- Runs a script that is read in, under the name of its file. -/
def runReadIn (path text : Text) : Eval Unit := fun m =>
  let named : Machine := { m with process := { m.process with command := some path } }
  match runText runCommand true false text named with
  | .error (.giveBack status) after => .ok () { after with process := { after.process with status } }
  | result => result

/-- Reads a script in: its commands are run by this shell. -/
def readIn (arguments : List Text) : Eval Unit := do
  match arguments with
  | [] => setStatus 0
  | name :: _ => do
    let path ← sourceFile name
    match ← openPath .read path with
    | .error fault => failWith (cannotOpen path fault)
    | .ok opened =>
      let data := ((← getSystem).content opened endless).toOption.getD []
      runReadIn runCommand path (scriptText data)

/-- A command of the shell that runs others. -/
def runningBuiltin? (tested : Bool) (name : String) : Option Builtin :=
  match name with
  | "eval" => some fun arguments => runText runCommand false tested (List.intercalate [' '] arguments)
  | "." => some (readIn runCommand)
  | "wait" => some (wait runCommand)
  | "exec" => some fun arguments => do
    match arguments with
    | [] => setStatus 0
    | words => executeProgram runCommand (← getProcess).searchPath words
  | _ => none

/-- Does something under the name of a command of the shell. A mistake in one that is not special is only
its failure. -/
def underName (name : Text) (isSpecial : Bool) (act : Eval Unit) : Eval Unit := fun m =>
  let restored (after : Machine) : Machine :=
    { after with process := { after.process with command := m.process.command } }
  let checked : Eval Unit := do
    act
    if (← getProcess).lostOutput then
      warn s!"{shown name}: I/O error"
      modifyProcess fun p => { p with status := p.status ||| 1 }
  match checked { m with process := { m.process with command := some name, lostOutput := false } } with
  | .ok _ after => .ok () (restored after)
  | .error (.failed status) after =>
    let after := restored after
    if isSpecial then .error (.failed status) after
    else .ok () { after with process := { after.process with status } }
  | .error stop after => .error stop (restored after)

/-- Runs what an invocation stands for. A program may take the place of a process that has nothing else to do. -/
def perform (tested isReplaceable : Bool) (i : Invocation) : Eval Unit := do
  match i.action with
  | .nothing => modifyProcess fun p => { p with status := p.substituted }
  | .function f => callFunction runCommand tested f i.words.tail
  | .program => do
    let p ← getProcess
    let searchPath := if i.usualPath then searchPathOfText (toOctets defaultSearchPath) else p.searchPath
    runProgram runCommand isReplaceable searchPath i.words
  | .builtin name =>
    match runningBuiltin? runCommand tested (shown name) with
    | some act => underName name i.isSpecial (act i.words.tail)
    | none =>
      match builtins.find? fun entry => entry.1.toList = name with
      | some (_, act) => underName name i.isSpecial (act i.words.tail)
      | none => setStatus 0

end Dispatch

end Unjar.Shell
