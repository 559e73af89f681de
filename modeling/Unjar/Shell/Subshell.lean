import Unjar.Shell.Script

/-!
Shells inside a shell. One that is waited for is run where it is started. One that goes on beside the others
is run when somebody waits for it, or when enough time has passed that it is at its end.
-/

namespace Unjar.Shell

/-- The process of a shell that starts as a copy of another one. It keeps only what ignores signals. -/
def Process.copied (p : Process) (number : Nat) : Process :=
  { p with number, jobs := [], traps := p.traps.filter (·.2 = []) }

def Process.connect (p : Process) (descriptor id : Nat) : Process :=
  { p with descriptors := (descriptor, id) :: p.descriptors.filter (·.1 ≠ descriptor) }

def dropNewlines (text : Text) : Text := (text.reverse.dropWhile (· = '\n')).reverse

/-- How a job goes: when it ends and with what status, what it leaves behind, and whether everything ends
with it. -/
structure Course where
  time : Nat
  status : Nat
  system : System
  stop : Option Stop := none

/-- So many jobs are run at most while somebody waits. -/
def jobsMax : Nat := 10000

section Subshells

-- Runs a command; what it yields may be tested, so that a failure is no reason to stop.
variable (runCommand : (tested : Bool) → Command → Eval Unit)

/-- Does something in a process of its own, and waits for its end. If a signal stops it, that may be told. -/
def inChild (tells : Bool) (prepare : Process → Process) (act : Eval Unit) : Eval Unit := fun m =>
  let number := m.system.nextProcess
  let system := { m.system with nextProcess := number + 1, running := number :: m.system.running }
  let back (after : Machine) (status : Nat) : Machine :=
    { process := { m.process with status }
      system := { after.system with running := m.system.running }.forgetFrom m.system.next m.process.descriptors }
  match toTheEnd runCommand act { system, process := prepare (m.process.copied number) } with
  | .ok status after => .ok () (back after status)
  | .error (.killed signal) after =>
    let told := Signal.description signal
    let tell : Eval Unit := if tells ∧ told ≠ "" then say 2 (told.toList ++ ['\n']) else return
    tell (back after (Signal.status signal))
  | .error stop after => .error stop after

/-- Does something in a shell of its own. -/
def asChild (prepare : Process → Process) (act : Eval Unit) : Eval Unit :=
  inChild runCommand true prepare act

/-- How a job goes if it is run now. -/
def courseOf (m : Machine) (job : Job) : Course :=
  let number := job.process.number
  let system := { m.system with
    waiting := m.system.waiting.filter (·.process.number ≠ number)
    running := number :: m.system.running
    clock := job.start
    deadline := job.stop.map fun (time, signal) => (time, number, signal) }
  let back (after : Machine) : System :=
    { after.system with running := m.system.running, clock := m.system.clock, deadline := m.system.deadline }
  match toTheEnd runCommand (runCommand false job.command) { system, process := job.process } with
  | .ok status after => { time := after.system.clock, status, system := back after }
  | .error stop after =>
    match stop with
    | .killed signal =>
      { time := (job.stop.map Prod.fst).getD after.system.clock, status := Signal.status signal, system := back after }
    | stop => { time := after.system.clock, status := 0, system := back after, stop := some stop }

/-- The job that ends first, and how it goes. -/
def firstToEnd (m : Machine) : List Job → Option (Job × Course)
  | [] => none
  | job :: rest =>
    let course := courseOf runCommand m job
    match firstToEnd m rest with
    | none => some (job, course)
    | some (other, later) => if course.time ≤ later.time then some (job, course) else some (other, later)

/-- Runs the job that ends first, if that is early enough, and tells when that is. -/
def finishJob (isEarly : Nat → Bool) : Eval (Option Nat) := fun m =>
  match firstToEnd runCommand m m.system.waiting with
  | none => .ok none m
  | some (job, course) =>
    if isEarly course.time then
      let ended := (job.process.number, course.status) :: course.system.ended
      let after : Machine := { m with system := { course.system with ended } }
      match course.stop with
      | some stop => .error stop after
      | none => .ok (some course.time) after
    else .ok none m

/-- Runs the jobs that are at their end by now. -/
def finishDue : Nat → Eval Unit
  | 0 => return
  | fuel + 1 => do
    let now := (← getSystem).clock
    if (← finishJob runCommand (· ≤ now)).isSome then finishDue fuel

def finishDueJobs : Eval Unit := do
  unless (← getSystem).waiting.isEmpty do finishDue runCommand jobsMax

/-- Waits for jobs as long as something holds. -/
def waitWhile (condition : Machine → Bool) : Nat → Eval Unit
  | 0 => return
  | fuel + 1 => do
    if condition (← get) then
      if let some time ← finishJob runCommand fun _ => true then
        modifySystem fun s => { s with clock := max s.clock time }
        waitWhile condition fuel

/-- Whether a job may still write into a pipe. -/
def hasWriter (pipe : Nat) (m : Machine) : Bool :=
  m.system.waiting.any fun job => job.process.descriptors.any fun (_, id) =>
    (m.system.openFile? id).any fun file => file.writes && file.channel = .pipe pipe

def waitForWriters (pipe : Nat) : Eval Unit := waitWhile runCommand (hasWriter pipe) jobsMax

/-- What something writes to its standard output, done in a shell of its own. -/
def captured (act : Eval Unit) : Eval Bytes := do
  let m ← get
  let (pipe, s) := m.system.newPipe {}
  let (id, s) := s.openNew { channel := .pipe pipe, writes := true }
  set { m with system := s }
  asChild runCommand (·.connect 1 id) act
  waitForWriters runCommand pipe
  let output := ((← getSystem).pipe pipe).content
  modifySystem (·.forgetFrom m.system.next m.process.descriptors)
  modifyProcess fun p => { p with status := m.process.status, substituted := p.status }
  return output

/-- The text that a substitution stands for. -/
def substitution : Command → Eval Text
  | .nothing => return []
  | body => do
    let output ← captured runCommand (runCommand false body)
    return dropNewlines (ofOctets (output.filter (· ≠ 0)))

/-- Starts a process that goes on beside this one. It has no input, and nobody interrupts it. -/
def startJob (command : Command) : Eval Unit := do
  let m ← get
  let number := m.system.nextProcess
  let (id, s) := m.system.openNew { channel := .nothing, reads := true, writes := true }
  let copied := (m.process.copied number).connect 0 id
  let ignored := [Signal.interrupt, Signal.quit].map fun signal => (signal, ([] : Text))
  let (command, isReplaceable) := match command with
    | .subshell line inner redirections => (.redirected line inner redirections, false)
    | .simple .. => (command, true)
    | _ => (command, false)
  let process := { copied with traps := ignored ++ copied.traps, isReplaceable }
  let job : Job := { process, command, start := s.clock }
  set { m with
    system := { s with nextProcess := number + 1, waiting := s.waiting ++ [job] }
    process := { m.process with lastJob := some number, jobs := m.process.jobs ++ [number], status := 0 } }

/-- Runs the stages of a pipeline, each on what the one before it wrote. They start at one time. -/
def runStages (capacity start status : Nat) (tested : Bool) (input : Process → Process) : List Command → Eval Unit
  | [] => return
  | [last] => do
    setStatus status
    asChild runCommand input (runCommand tested last)
  | stage :: rest => do
    let s ← getSystem
    let (pipe, s) := s.newPipe { capacity := some capacity }
    let (writer, s) := s.openNew { channel := .pipe pipe, writes := true }
    let (reader, s) := s.openNew { channel := .pipe pipe, reads := true }
    modifySystem fun _ => s
    setStatus status
    asChild runCommand (fun p => (input p).connect 1 writer) (runCommand tested stage)
    waitForWriters runCommand pipe
    let clock := (← getSystem).clock
    modifySystem fun s => { s with clock := start }
    runStages capacity start status tested (·.connect 0 reader) rest
    modifySystem fun s => { s with clock := max s.clock clock }

/-- Whether a stage was stopped although the next one would have read on. -/
def wasCutOff (m : Machine) (first : Nat) : Bool :=
  m.system.pipes.any fun (number, pipe) => first ≤ number && pipe.overrun && pipe.drained

/-- How much pipes hold in the first attempt to run a pipeline, and in the next ones. -/
def capacities : List Nat := [65536, 1048576, 16777216]

/-- Runs a pipeline. The reader of a pipe starts only when its writer has ended, so a writer that never
ends is stopped when the pipe is full; if its reader wants more, the pipeline is run again with more room. -/
def runPipeline (tested : Bool) (commands : List Command) : Eval Unit := fun m =>
  let attempt (capacity : Nat) : EStateM.Result Stop Machine Unit :=
    runStages runCommand capacity m.system.clock m.process.status tested id commands m
  let finish : Eval Unit := modifySystem (·.forgetFrom m.system.next m.process.descriptors)
  go attempt finish capacities m
where
  go (attempt : Nat → EStateM.Result Stop Machine Unit) (finish : Eval Unit) : List Nat → Eval Unit
    | [], m => .ok () m
    | capacity :: larger, m =>
      match attempt capacity with
      | .ok _ after =>
        if larger ≠ [] ∧ wasCutOff after m.system.next then go attempt finish larger m else finish after
      | .error stop after => .error stop after

end Subshells

end Unjar.Shell
