import Unjar.Shell.Utility.Modes

/-!
Programs that make directories and empty files.
-/

namespace Unjar.Shell

/-- The names of the directories on the way to a name, and the name itself. -/
def namesOnTheWay (passed : Text) : Text → List Text
  | [] => [passed]
  | c :: rest =>
    let further := namesOnTheWay (passed ++ [c]) rest
    if c = '/' ∧ passed.any (· ≠ '/') ∧ passed.getLast? ≠ some '/' ∧ rest.any (· ≠ '/') then passed :: further
    else further

/-- How directories are made. -/
structure MakingManner where
  self : Text
  mask : Nat
  verbose : Bool := false
  mode : Option ModeRule := none

namespace MakingManner

/-- Makes a directory of which nothing is known to be in the way. -/
def make (m : MakingManner) (isLast : Bool) (name : Text) : Eval (Option Fault) := do
  match Permission.makeDirectory (← getFiles) m.mask (pathOf name) with
  | .error fault => return some fault
  | .ok made =>
    setFiles made
    if m.verbose then emitLine m.self s!"{shown m.self}: created directory {quoted name}".toList
    if let some l := (made.locate .use (pathOf name)).toOption then
      let old := ((made.node? l).map modeOf).getD 0
      let mode := if isLast then (m.mode.map (·.apply m.mask true 0o777)).getD old else old ||| 0o300
      if let some node := made.node? l then setFiles (made.put l (withMode mode node))
    return none

def makeOne (m : MakingManner) (name : Text) : Eval Unit := do
  if let some fault ← m.make true name then cannot m.self "cannot create directory" name fault

/-- Makes the directories that are missing, or tells what is in the way of which one. -/
def makeMissing (m : MakingManner) : List Text → Eval Unit
  | [] => return
  | name :: rest => do
    match ← m.make rest.isEmpty name with
    | none => makeMissing m rest
    | some fault =>
      let fs ← getFiles
      if fs.isDirectory (pathOf name) then makeMissing m rest
      else
        match fs.locate .use (pathOf name) with
        | .error .tooManyLinks =>
          cannot m.self (if rest = [] then "cannot stat" else "cannot create directory") name .tooManyLinks
        | target =>
          let isInTheWay := rest ≠ [] ∧ fault = .alreadyExists ∧ target.toBool
          cannot m.self "cannot create directory" name (if isInTheWay then .notADirectory else fault)

end MakingManner

def directoryGrammar : Grammar where
  letters := "pvm:Z"
  names := [("parents", 'p'), ("verbose", 'v'), ("mode", 'm')]

def makeDirectories : Utility := fun self arguments => do
  let g ← directoryGrammar.read self arguments
  if g.operands = [] then missingOperand self
  let mode ← match g.argument? 'm' with
    | none => pure none
    | some text =>
      match ModeRule.ofText? text with
      | some rule => pure (some rule)
      | none => giveUp self 1 s!"invalid mode {quoted text}"
  let m : MakingManner := { self, mask := (← getProcess).mask, verbose := g.has "v", mode }
  for name in g.operands do
    if g.has "p" then m.makeMissing (namesOnTheWay [] name) else m.makeOne name

def touchGrammar : Grammar where
  letters := "acd:fhmr:t:"
  names := [("no-create", 'c'), ("date", 'd'), ("reference", 'r'), ("no-dereference", 'h')]

/-- Files are made if they are missing. Of their times nothing is known. -/
def touch : Utility := fun self arguments => do
  let g ← touchGrammar.read self arguments
  if g.operands = [] then misused self 1 "missing file operand"
  for name in g.operands do
    let fs ← getFiles
    unless (fs.locateAdmitted .use (pathOf name)).toBool || g.has "c" do
      let mask := (← getProcess).mask
      let _ ← changeFiles self "cannot touch" name fun fs => Permission.write fs mask (pathOf name) []

end Unjar.Shell
