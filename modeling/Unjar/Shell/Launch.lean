import Unjar.Shell.Run

/-!
Starting programs. What they do to files stays, and so does what they wrote.
-/

namespace Unjar.Shell

/-- How deep the commands of a script may go. -/
def depthMax : Nat := 10000

/-- The status of a script that went deeper. -/
def depthExceeded : Nat := 137

/-- The numbers of the program that starts others, and of the first one that it starts. -/
def starterNumber : Nat := 4242

/-- The variables of the first program. -/
def environment (world : World) : List (Text × Variable) :=
  let exported (name : String) (value : Bytes) : Text × Variable :=
    (name.toList, { value := some (ofOctets value), exported := true })
  [exported "PATH" (Bytes.joinWith colon (world.searchPath.map Path.text)), exported "TMPDIR" world.temporary.text]

/-- The pipes that a started program writes into. -/
def outputPipe : Nat := 0

def errorsPipe : Nat := 1

/-- The machine in which a program is started. It has nothing to read. -/
def Machine.start (world : World) : Machine :=
  let number := starterNumber + 1
  let system : System := {
    files := world.files
    pipes := [(outputPipe, {}), (errorsPipe, {})]
    opened := [(2, { channel := .nothing, reads := true }), (3, { channel := .pipe outputPipe, writes := true }),
      (4, { channel := .pipe errorsPipe, writes := true })]
    next := 5
    nextProcess := number + 1
    starter := starterNumber
    running := [number] }
  let process : Process := {
    number
    shellNumber := number
    self := []
    bindings := environment world
    descriptors := [(0, 2), (1, 3), (2, 4)]
    here := world.files.here }
  { system, process }

/-- What a started program wrote. -/
def Machine.written (m : Machine) (pipe : Nat) : Bytes := (m.system.pipe pipe).content

/-- Runs a program to its end. Whoever still writes where it wrote is waited for. -/
def runToEnd (image : Image) : Eval Nat := do
  let status ← toTheEnd (run depthMax) (runImage (run depthMax) replacementsMax image)
  waitForWriters (run depthMax) outputPipe
  waitForWriters (run depthMax) errorsPipe
  return status

def launch : Launcher := fun program arguments => do
  if (program.text :: arguments).any (·.contains 0) then throw (.notStarted .nulInArgument)
  let world ← get
  let finish (m : Machine) (status : Nat) : Task Unfinished Finished := do
    Task.setFiles { m.system.files with here := world.files.here }
    return { status, output := m.written outputPipe, errors := m.written errorsPipe }
  match load world.files world.searchPath program (program.text :: arguments) with
  | .error cause => throw (.notStarted cause)
  | .ok (.plainFile _) => throw (.notStarted .notExecutable)
  | .ok (.image image) =>
    match runToEnd image (.start world) with
    | .ok status m => finish m status
    | .error .interruptStarter m =>
      Task.setFiles { m.system.files with here := world.files.here }
      throw .interrupted
    | .error (.killed signal) m => finish m (Signal.status signal)
    | .error _ m => finish m depthExceeded

end Unjar.Shell
