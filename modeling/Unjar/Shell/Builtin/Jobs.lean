import Unjar.Shell.Builtin.Signals
import Unjar.Shell.Subshell

/-!
The commands for processes that go on beside the shell.
-/

namespace Unjar.Shell

section Jobs

-- Runs a command; what it yields may be tested, so that a failure is no reason to stop.
variable (runCommand : (tested : Bool) → Command → Eval Unit)

/-- The signals that came for this process. -/
def signalFor? (m : Machine) : Option Nat :=
  (m.system.sent.find? fun entry => entry.1 = m.process.number).map Prod.snd

def isWaiting (m : Machine) (number : Nat) : Bool := m.system.waiting.any (·.process.number = number)

/-- Waits for some of the jobs; a signal ends that, and then the status tells which one. -/
def waitForAll (numbers : List Nat) : Eval (Option Nat) := do
  waitWhile runCommand (fun m => (signalFor? m).isNone && numbers.any (isWaiting m)) jobsMax
  return (signalFor? (← get)).map Signal.status

/-- The status of a job that is waited for. What stopped it is told. -/
def waitForOne (number : Nat) : Eval Nat := do
  unless (← getProcess).jobs.contains number do return 127
  match ← waitForAll runCommand [number] with
  | some status => return status
  | none =>
    let status := ((← getSystem).ended.lookup number).getD 0
    let told := Signal.description (status - Signal.status 0)
    if Signal.status 0 < status ∧ told ≠ "" then say 2 (told.toList ++ ['\n'])
    return status

def wait : Builtin := fun arguments => do
  let (_, operands) ← options "" arguments
  if operands = [] then
    let p ← getProcess
    setStatus ((← waitForAll runCommand p.jobs).getD 0)
  else
    for operand in operands do
      let number ← if operand.head? = some '%' then jobNumber operand else numberOf operand
      setStatus (← waitForOne runCommand number)

end Jobs

/-- Shows the jobs that go on. -/
def showJobs : Builtin := fun arguments => do
  let (_, operands) ← options "lp" arguments
  for operand in operands do
    if operand.head? = some '%' then
      let _ ← jobNumber operand
  let m ← get
  let numbered := (List.range m.process.jobs.length).zip m.process.jobs
  for (index, number) in numbered.filter fun entry => isWaiting m entry.2 do
    let mark := if some number = m.process.jobs.getLast? then '+'
      else if some number = m.process.jobs.dropLast.getLast? then '-' else ' '
    answerLine s!"[{index + 1}] {mark} Running                    ".toList
  setStatus 0

/-- There is nothing to be moved to the front or to the back. -/
def moveJob : Builtin := fun arguments =>
  match arguments with
  | [] => failWith "No current job"
  | job :: _ => do
    let _ ← jobNumber job
    failWith s!"job {shown job} not created under job control"

end Unjar.Shell
