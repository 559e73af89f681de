import Unjar.Event
import Unjar.FileSystem.Operations

/-!
What a program works on. A task ends with a value or an error, and with the world it leaves behind
in either case.
-/

namespace Unjar

structure World where
  files : FileSystem
  /-- The directories in which programs are looked for. -/
  searchPath : List Path := []
  /-- The directory for temporary files. -/
  temporary : Path := ⟨[]⟩
  /-- What was told so far, in order. -/
  events : List Event := []
  /-- The class files the decompiler was asked about so far, each with the name it was told. -/
  calls : List (Path × Bytes) := []
  deriving DecidableEq

/-- What stands between the directories of a search path that is written as one text. -/
def colon : UInt8 := 0x3A

/-- The directories of a search path that is written as one text. An empty one is the current
directory. -/
def searchPathOfText (text : Bytes) : List Path :=
  (text.splitOn colon).map Path.mk

abbrev Task (ε α : Type) := EStateM ε World α

namespace Task

variable {ε ε' α β : Type}

def files : Task ε FileSystem :=
  return (← get).files

def setFiles (files : FileSystem) : Task ε Unit :=
  modify fun world => { world with files }

def tell (event : Event) : Task ε Unit :=
  modify fun world => { world with events := world.events ++ [event] }

def recordCall (file : Path) (name : Bytes) : Task ε Unit :=
  modify fun world => { world with calls := world.calls ++ [(file, name)] }

/-- Names the error of a task in the terms of the task around it. -/
def withError (wrap : ε → ε') (task : Task ε α) : Task ε' α :=
  task.adaptExcept wrap

/-- Asks the file system something. -/
def query (ask : FileSystem → Except ε α) : Task ε α := do
  match ask (← files) with
  | .ok answer => return answer
  | .error e => throw e

/-- An operation that changes the file system, or fails and leaves it as it is. -/
def change (operation : FileSystem → Except ε FileSystem) : Task ε Unit := do
  match operation (← files) with
  | .ok changed => setFiles changed
  | .error e => throw e

/-- An operation that may leave something behind also when it fails. -/
def attempt (operation : FileSystem → Except ε α × FileSystem) : Task ε α := do
  let (result, after) := operation (← files)
  setFiles after
  match result with
  | .ok value => return value
  | .error e => throw e

end Task

end Unjar
