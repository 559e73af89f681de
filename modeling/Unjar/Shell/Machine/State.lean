import Unjar.Shell.Command
import Unjar.World

/-!
The state in which scripts are run: what all processes share, and what the process at hand has for
itself. A shell inside another one is a copy of its process that works on the same system.
-/

namespace Unjar.Shell

/-- What is at the other end of an open file. -/
inductive Channel where
  | file (l : Location)
  /-- A file that was removed while it was open. -/
  | removed (data : Bytes)
  | directory (l : Location)
  | pipe (number : Nat)
  | nothing
  | zeros
  /-- A device that takes nothing. -/
  | full
  deriving DecidableEq

structure OpenFile where
  channel : Channel
  position : Nat := 0
  reads : Bool := false
  writes : Bool := false
  appends : Bool := false

/-- What was written and not yet read. -/
structure Pipe where
  unread : Bytes := []
  /-- The octets behind these, the latest first. -/
  fresh : Bytes := []
  size : Nat := 0
  capacity : Option Nat := none
  /-- Whether a writer was stopped because the pipe was full. -/
  overrun : Bool := false
  /-- Whether a reader came to the end. -/
  drained : Bool := false

structure Variable where
  value : Option Text
  exported : Bool := false
  readOnly : Bool := false

structure Function where
  line : Nat
  body : Command

/-- The position of the options that a script reads from its arguments. -/
structure OptionPlace where
  index : Nat := 1
  offset : Option Nat := none

structure Process where
  number : Nat
  /-- The number of the shell that this one is a part of. -/
  shellNumber : Nat
  self : Text
  arguments : List Text := []
  bindings : List (Text × Variable) := []
  functions : List (Text × Function) := []
  aliases : List (Text × Text) := []
  /-- The letters of the options that are set. -/
  options : List Char := []
  /-- What is done when signals come; nothing at all if they are ignored. -/
  traps : List (Nat × Text) := []
  /-- The open files that the descriptors stand for. -/
  descriptors : List (Nat × Nat) := []
  here : Location
  /-- The way on which the current directory was reached. -/
  way : Text := []
  mask : Nat := 0o022
  loops : Nat := 0
  /-- The variables that are put back when a function or a command ends, the innermost scope first. -/
  scopes : List (List (Text × Option Variable)) := []
  /-- The line of the command at hand. -/
  line : Nat := 0
  /-- The line up to which the script was read. -/
  readLine : Nat := 0
  /-- The name of the command of the shell that is being run. -/
  command : Option Text := none
  status : Nat := 0
  /-- The status of the last substitution in the command at hand. -/
  substituted : Nat := 0
  optionPlace : OptionPlace := {}
  /-- The process that was started last to go on beside this one. -/
  lastJob : Option Nat := none
  /-- The processes that were started so and not waited for. -/
  jobs : List Nat := []
  /-- The status to end with while it is settled how the shell ends. -/
  finalStatus : Option Nat := none
  documents : List (Nat × Word) := []
  nextDocument : Nat := 0
  /-- Whether the process has nothing to do but the command at hand, so that a program may take its place. -/
  isReplaceable : Bool := false
  /-- Whether the trace of commands is being made up. -/
  tracing : Bool := false
  /-- Whether something that the command at hand wrote was lost. -/
  lostOutput : Bool := false

/-- A process that goes on beside the others. -/
structure Job where
  process : Process
  command : Command
  /-- When it was started. -/
  start : Nat
  /-- When it is stopped, and by which signal. -/
  stop : Option (Nat × Nat) := none

structure System where
  files : FileSystem
  opened : List (Nat × OpenFile) := []
  pipes : List (Nat × Pipe) := []
  /-- The number of the next open file or pipe. -/
  next : Nat := 0
  nextProcess : Nat
  /-- The number of the program that started everything. -/
  starter : Nat
  /-- The time in microseconds. -/
  clock : Nat := 0
  /-- When a process gets a signal, which process, and which signal. -/
  deadline : Option (Nat × Nat × Nat) := none
  /-- The processes that wait for one another, the innermost first. -/
  running : List Nat := []
  /-- The processes that go on beside them. -/
  waiting : List Job := []
  /-- The processes that ended, with their status. -/
  ended : List (Nat × Nat) := []
  /-- The signals that were sent to processes and not seen yet. -/
  sent : List (Nat × Nat) := []

structure Machine where
  system : System
  process : Process

/-- Why commands stop before they are done. -/
inductive Stop where
  | exit (status : Nat)
  /-- A mistake that ends the shell, or the command of the shell in which it was made. -/
  | failed (status : Nat)
  /-- A function or a script read in is left. -/
  | giveBack (status : Nat)
  | leaveLoop (loops : Nat)
  | nextRound (loops : Nat)
  | killed (signal : Nat)
  /-- An interrupt was sent to the program that started the script. -/
  | interruptStarter
  | exhausted

abbrev Eval := EStateM Stop Machine

def getProcess : Eval Process := return (← get).process

def getSystem : Eval System := return (← get).system

def modifyProcess (change : Process → Process) : Eval Unit :=
  modify fun m => { m with process := change m.process }

def modifySystem (change : System → System) : Eval Unit :=
  modify fun m => { m with system := change m.system }

/-- The files as the process at hand sees them. -/
def Machine.files (m : Machine) : FileSystem :=
  { m.system.files with here := m.process.here }

def getFiles : Eval FileSystem := return (← get).files

def setFiles (files : FileSystem) : Eval Unit :=
  modifySystem fun s => { s with files }

def setStatus (status : Nat) : Eval Unit :=
  modifyProcess fun p => { p with status }

def pathOf (text : Text) : Path := ⟨toOctets text⟩

def locationText (l : Location) : Text :=
  ofOctets (Path.ofComponents (.root :: l.map Component.name)).text

def Process.has (p : Process) (option : Char) : Bool := p.options.contains option

end Unjar.Shell
