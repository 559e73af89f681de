import Unjar.Shell.Expansion.Words
import Unjar.Shell.Opening
import Unjar.Shell.Subshell

/-!
Redirections. Their words are expanded first, and then the files are opened one after the other.
-/

namespace Unjar.Shell

/-- A redirection whose word is expanded. -/
inductive Prepared where
  | file (descriptor : Nat) (access : Access) (path : Text)
  | copy (descriptor source : Nat)
  | close (descriptor : Nat)
  | document (descriptor number : Nat)

def Prepared.descriptor : Prepared → Nat
  | file d .. | copy d _ | close d | document d _ => d

def disconnect (descriptor : Nat) : Eval Unit :=
  modifyProcess fun p => { p with descriptors := p.descriptors.filter (·.1 ≠ descriptor) }

/-- Lets a descriptor stand for a file that was just opened. -/
def connectNew (descriptor : Nat) (file : OpenFile) : Eval Unit := do
  let (id, s) := (← getSystem).openNew file
  modifySystem fun _ => s
  modifyProcess (·.connect descriptor id)

section Redirections

-- Runs a command; what it yields may be tested, so that a failure is no reason to stop.
variable (runCommand : (tested : Bool) → Command → Eval Unit)

def Redirection.prepare : Redirection → Eval Prepared
  | .file descriptor access target => return .file descriptor access (← textOf (substitution runCommand) .text target)
  | .document descriptor number => return .document descriptor number
  | .duplicate descriptor source => do
    match ← textOf (substitution runCommand) .text source with
    | ['-'] => return .close descriptor
    | [c] =>
      if c.isDigit then return .copy descriptor (valueIn 10 [c]) else refuseNumber
    | _ => refuseNumber
where
  /-- Tells that there is no such descriptor, as of a mistake in what was read last. -/
  refuseNumber : Eval Prepared := do
    modifyProcess fun p => { p with line := p.readLine }
    failWith "Syntax error: Bad fd number"

/-- Whether a file is in the way because files must not be overwritten. -/
def isProtected (access : Access) (path : Text) : Eval Bool := do
  return access = .write && (← getProcess).has 'C' && (← getFiles).isFile (pathOf path)

def Prepared.apply : Prepared → Eval Unit
  | .file descriptor access path => do
    let refuse (fault : Fault) : Eval Unit :=
      match access with
      | .read => failWith (cannotOpen path fault)
      | _ => failWith (s!"cannot create {shown path}: " ++ reasonFor "Directory nonexistent" fault)
    if ← isProtected access path then refuse .alreadyExists
    match ← openPath access path with
    | .ok opened => connectNew descriptor opened
    | .error fault => refuse fault
  | .copy descriptor source => do
    if descriptor = source then return
    match (← getProcess).descriptors.lookup source with
    | some id => modifyProcess (·.connect descriptor id)
    | none => failWith s!"{source}: Bad file descriptor"
  | .close descriptor => disconnect descriptor
  | .document descriptor number => do
    let body := ((← getProcess).documents.lookup number).getD []
    let text ← textOf (substitution runCommand) .document body
    let (pipe, s) := (← getSystem).newPipe { unread := toOctets text }
    modifySystem fun _ => s
    connectNew descriptor { channel := .pipe pipe, reads := true }

/-- Does something, and tells whether it was done without a mistake. -/
def succeeds (act : Eval Unit) : Eval Bool := fun m =>
  match act m with
  | .ok _ after => .ok true after
  | .error (.failed _) after => .ok false after
  | .error stop after => .error stop after

/-- Does something and puts descriptors back afterwards, unless the shell ends with it. -/
def keepingDescriptors {α : Type} (descriptors : List Nat) (act : Eval α) : Eval α := fun m =>
  let restored (after : Machine) : Machine :=
    let outside := m.process.descriptors.filter fun entry => descriptors.contains entry.1
    let inside := after.process.descriptors.filter fun entry => ¬ descriptors.contains entry.1
    let all := outside ++ inside
    { process := { after.process with descriptors := all }
      system := after.system.forgetFrom m.system.next all }
  match act m with
  | .ok value after => .ok value (restored after)
  | .error (.exit status) after => .error (.exit status) after
  | .error stop after => .error stop (restored after)

/-- Does something with redirections, and something else if they fail. -/
def redirecting (rs : List Redirection) (act failed : Eval Unit) : Eval Unit := do
  if rs.isEmpty then act
  else
    let prepared ← rs.mapM (Redirection.prepare runCommand)
    keepingDescriptors (prepared.map Prepared.descriptor) do
      if ← succeeds (for r in prepared do Prepared.apply runCommand r) then act else failed

end Redirections

end Unjar.Shell
