import Unjar.Shell.Builtin.Basic

/-!
The commands that end something, and those that do next to nothing.
-/

namespace Unjar.Shell

def succeed : Builtin := fun _ => setStatus 0

def failQuietly : Builtin := fun _ => setStatus 1

/-- A status has eight bits for those who wait for it. -/
def visibleStatus (status : Nat) : Nat := status % 256

def exit : Builtin := fun arguments => do
  let p ← getProcess
  let status ← match arguments with
    | first :: _ => numberOf first
    | [] => pure (p.finalStatus.getD p.status)
  throw (.exit (visibleStatus status))

def giveBack : Builtin := fun arguments => do
  let status ← match arguments with
    | first :: _ => numberOf first
    | [] => pure (← getProcess).status
  throw (.giveBack status)

/-- Leaves so many loops, or all there are. -/
def leaveLoops (stop : Nat → Stop) : Builtin := fun arguments => do
  let wanted ← match arguments with
    | first :: _ => numberOf first
    | [] => pure 1
  if wanted = 0 then failWith s!"Illegal number: {shown (arguments.headD [])}"
  let loops := (← getProcess).loops
  setStatus 0
  if loops ≠ 0 then throw (stop (min wanted loops))

def showTimes : Builtin := fun _ => do
  for _ in [1, 2] do answerLine "0m0.000000s 0m0.000000s".toList
  setStatus 0

/-- Nothing is limited, and no limit is kept. -/
def limit : Builtin := fun arguments => do
  let (_, operands) ← options "HSatfdscmlnpvwr" arguments
  match operands with
  | [] => answerLine "unlimited".toList
  | [value] =>
    unless value.all Char.isDigit || value = "unlimited".toList do failWith "bad number"
  | _ => failWith "too many arguments"
  setStatus 0

end Unjar.Shell
