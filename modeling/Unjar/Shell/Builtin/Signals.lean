import Unjar.Shell.Builtin.Basic

/-!
The commands that send signals, and that say what is done when they come.
-/

namespace Unjar.Shell

def setTrap (action : Option Text) (signal : Nat) : Eval Unit :=
  modifyProcess fun p =>
    let others := p.traps.filter (·.1 ≠ signal)
    { p with traps := match action with
        | some action => (signal, action) :: others
        | none => others }

/-- Sets an action for signals until one is not known. -/
def setTraps (action : Option Text) : List Text → Eval Unit
  | [] => setStatus 0
  | word :: rest => do
    match Signal.ofText? 0 word with
    | some signal =>
      setTrap action signal
      setTraps action rest
    | none =>
      say 2 s!"trap: {shown word}: bad trap\n".toList
      setStatus 1

def showTraps : Eval Unit := do
  let p ← getProcess
  for signal in List.range Signal.names.length do
    if let some action := p.traps.lookup signal then
      answerLine ("trap -- ".toList ++ singleQuoted action ++ ' ' :: (Signal.name signal).toList)
  setStatus 0

/-- Without an action, or with a signal or a dash in its place, nothing is done any more. -/
def trap : Builtin := fun arguments => do
  let (_, operands) ← options "" arguments
  match operands with
  | [] => showTraps
  | [signal] => setTraps none [signal]
  | action :: signals =>
    if (Signal.ofNumber? action).isSome then setTraps none operands
    else setTraps (if action = ['-'] then none else some action) signals

def killUsage : String :=
  "Usage: kill [-s sigspec | -signum | -sigspec] [pid | job]... or\nkill -l [exitstatus]"

/-- What a call of the command is for. -/
inductive KillPurpose where
  | send (signal : Nat)
  | list

/-- The purpose and the operands. A first word that is no signal is read as options. -/
def killPurpose (arguments : List Text) : Eval (KillPurpose × List Text) := do
  match arguments with
  | ('-' :: word) :: rest =>
    match Signal.ofText? 1 word with
    | some signal => return (.send signal, rest)
    | none =>
      let (found, operands) ← options "ls:" arguments
      let mut purpose : KillPurpose := .send Signal.terminate
      for (letter, name) in found do
        if letter = 'l' then purpose := .list
        else match Signal.ofText? 1 name with
          | some signal => purpose := .send signal
          | none => failWith s!"invalid signal number or name: {shown name}"
      return (purpose, operands)
  | operands => return (.send Signal.terminate, operands)

def listSignals : List Text → Eval Unit
  | [] => do
    answerLine ['0']
    for name in Signal.names.tail do answerLine name.toList
    setStatus 0
  | status :: _ => do
    let n ← numberOf status
    let signal := if n > 128 then n - 128 else n
    if 0 < signal ∧ signal < Signal.names.length then answerLine (Signal.name signal).toList
    else failWith s!"invalid signal number or exit status: {shown status}"
    setStatus 0

/-- Sends a signal to a process, and tells whether there is one. -/
def sendSignal (signal number : Nat) : Eval Bool := do
  let s ← getSystem
  if number = s.starter then
    if signal = Signal.interrupt then throw .interruptStarter
    return true
  else if s.running.contains number then
    if signal ≠ 0 then modifySystem fun s => { s with sent := s.sent ++ [(number, signal)] }
    return true
  else if s.waiting.any (·.process.number = number) then
    let stopped (job : Job) : Job :=
      if job.process.number = number ∧ signal ≠ 0 ∧ job.stop.isNone then { job with stop := some (s.clock, signal) }
      else job
    modifySystem fun s => { s with waiting := s.waiting.map stopped }
    return true
  else return (← getProcess).jobs.contains number

/-- The process that a job is known by. -/
def jobNumber (name : Text) : Eval Nat := do
  let jobs := (← getProcess).jobs
  let found := match name.tail with
    | [] | ['%'] | ['+'] => jobs.getLast?
    | ['-'] => jobs.dropLast.getLast?
    | digits => if digits.all Char.isDigit then jobs[valueIn 10 digits - 1]? else none
  match found with
  | some number => return number
  | none => failWith s!"No such job: {shown name}"

def kill : Builtin := fun arguments => do
  if arguments = [] then failWith killUsage
  match ← killPurpose arguments with
  | (.list, operands) => listSignals operands
  | (.send signal, operands) =>
    if operands = [] then failWith killUsage
    let mut status := 0
    for operand in operands do
      let isKnown ← match operand with
        | '%' :: _ => sendSignal signal (← jobNumber operand)
        | '-' :: group => sendSignal signal (← numberOf group)
        | operand => sendSignal signal (← numberOf operand)
      unless isKnown do
        warn "No such process\n"
        status := 1
    setStatus status

end Unjar.Shell
