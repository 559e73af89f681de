import Unjar.Shell.Builtin.Basic
import Unjar.Shell.Permission
import Unjar.Shell.Reader.Command

/-!
The commands that tell what a name stands for.
-/

namespace Unjar.Shell

/-- The commands of the shell that are not special. -/
def regularNames : List String :=
  ["[", "alias", "bg", "cd", "chdir", "command", "echo", "false", "fg", "getopts", "hash", "jobs", "kill", "printf",
    "pwd", "read", "test", "true", "type", "ulimit", "umask", "unalias", "wait"]

def isBuiltinName (name : Text) : Bool := isSpecialName name || regularNames.any (·.toList = name)

/-- The file that is run for a name, if there is one. -/
def programPath? (fs : FileSystem) (searchPath : List Path) (name : Text) : Option Text :=
  let candidates := if name.contains '/' then [pathOf name] else searchPath.map (·.child (toOctets name))
  (candidates.find? fs.mayRun).map fun p => ofOctets p.text

/-- What a name stands for. -/
inductive Meaning where
  | keyword
  | alias (text : Text)
  | function
  | builtin (special : Bool)
  | program (path : Text)
  | nothing

def meaningOf (searchPath : Option (List Path)) (name : Text) : Eval Meaning := do
  let p ← getProcess
  if Reader.keywords.any (·.toList = name) then return .keyword
  else if let some text := p.aliases.lookup name then return .alias text
  else if (p.functions.lookup name).isSome then return .function
  else if isBuiltinName name then return .builtin (isSpecialName name)
  else match programPath? (← getFiles) (searchPath.getD p.searchPath) name with
    | some path => return .program path
    | none => return .nothing

/-- An alias as it would be written to make it. -/
def aliasText (name text : Text) : Text := name ++ '=' :: singleQuoted text

/-- Tells what a name stands for, in a sentence. -/
def describe (searchPath : Option (List Path)) (name : Text) : Eval Nat := do
  let tell (text : String) : Eval Nat := do
    answerLine (name ++ text.toList)
    return 0
  match ← meaningOf searchPath name with
  | .keyword => tell " is a shell keyword"
  | .alias text => tell s!" is an alias for {shown text}"
  | .function => tell " is a shell function"
  | .builtin special => tell (if special then " is a special shell builtin" else " is a shell builtin")
  | .program path => tell s!" is {shown path}"
  | .nothing =>
    answerLine (name ++ ": not found".toList)
    return 127

/-- Tells what a name stands for, as it would be written. -/
def describeBriefly (searchPath : Option (List Path)) (name : Text) : Eval Nat := do
  let tell (text : Text) : Eval Nat := do
    answerLine text
    return 0
  match ← meaningOf searchPath name with
  | .alias text => tell ("alias ".toList ++ aliasText name text)
  | .program path => tell path
  | .nothing => return 127
  | _ => tell name

def type : Builtin := fun names => do
  let mut status := 0
  for name in names do status := status ||| (← describe none name)
  setStatus status

/-- The command that only tells what another one is. -/
def showCommand : Builtin := fun arguments => do
  let (found, names) ← options "pvV" arguments
  let searchPath := if found.any fun option => option.1 = 'p' then
      some (searchPathOfText (toOctets defaultSearchPath))
    else none
  match found.reverse.find? fun option => option.1 ≠ 'p', names with
  | some (letter, _), name :: _ =>
    setStatus (← if letter = 'v' then describeBriefly searchPath name else describe searchPath name)
  | _, _ => setStatus 0

def showAliases : Eval Unit := do
  for (name, text) in inTableOrder (← getProcess).aliases.reverse do answerLine (aliasText name text)

def defineAlias : Builtin := fun arguments => do
  setStatus 0
  if arguments = [] then showAliases
  for argument in arguments do
    match nameAndValue argument with
    | (name, some text) =>
      modifyProcess fun p => { p with aliases :=
        if (p.aliases.lookup name).isSome then p.aliases.map fun entry => if entry.1 = name then (name, text) else entry
        else (name, text) :: p.aliases }
    | (name, none) =>
      match (← getProcess).aliases.lookup name with
      | some text => answerLine (aliasText name text)
      | none =>
        say 2 s!"alias: {shown name} not found\n".toList
        setStatus 1

def unalias : Builtin := fun arguments => do
  let (found, names) ← options "a" arguments
  setStatus 0
  if found ≠ [] then modifyProcess fun p => { p with aliases := [] }
  else for name in names do
    if ((← getProcess).aliases.lookup name).isSome then
      modifyProcess fun p => { p with aliases := p.aliases.filter (·.1 ≠ name) }
    else
      say 2 s!"unalias: {shown name} not found\n".toList
      setStatus 1

/-- Nothing is remembered of where programs are, so there is only to be told which are missing. -/
def rememberPlaces : Builtin := fun arguments => do
  let (_, names) ← options "r" arguments
  setStatus 0
  for name in names do
    match ← meaningOf none name with
    | .nothing =>
      warn s!"{shown name}: not found"
      setStatus 1
    | _ => pure ()

end Unjar.Shell
