import Unjar.Shell.Builtin.Basic
import Unjar.Shell.Condition
import Unjar.Shell.Format

/-!
The commands that write text, and the one that judges conditions.
-/

namespace Unjar.Shell

def echo : Builtin := fun arguments => do
  answer (echoed arguments)
  setStatus 0

/-- What is wrong is told at once, and the text is written at the end. -/
def printFormatted : Builtin := fun arguments => do
  let (_, operands) ← options "" arguments
  match operands with
  | [] => failWith "usage: printf format [arg ...]"
  | format :: arguments => do
    let p := printed format arguments
    for complaint in p.complaints do warn complaint
    if let some failure := p.failure then warn failure
    answer p.text.reverse
    match p.failure with
    | some _ => throw (.failed 2)
    | none => setStatus (if p.complaints.isEmpty then 0 else 1)

def judgeCondition : Builtin := fun words => do
  match Condition.judge (← getFiles) words with
  | .ok value => setStatus (if value then 0 else 1)
  | .error message => failWith message

/-- A condition between brackets. -/
def judgeBracketed : Builtin := fun words =>
  match words.getLast? with
  | some [']'] => judgeCondition words.dropLast
  | _ => failWith "missing ]"

end Unjar.Shell
