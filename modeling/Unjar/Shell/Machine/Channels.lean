import Unjar.Shell.Machine.State

/-!
Reading and writing through descriptors.
-/

namespace Unjar.Shell

/-- The signal that stops one who writes where nobody reads. -/
def brokenPipe : Nat := 13

def Pipe.content (p : Pipe) : Bytes :=
  if p.fresh.isEmpty then p.unread else p.unread ++ p.fresh.reverse

namespace System

def openFile? (s : System) (id : Nat) : Option OpenFile := s.opened.lookup id

def setOpenFile (s : System) (id : Nat) (file : OpenFile) : System :=
  { s with opened := s.opened.map fun entry => if entry.1 = id then (id, file) else entry }

def pipe (s : System) (number : Nat) : Pipe := (s.pipes.lookup number).getD {}

def setPipe (s : System) (number : Nat) (pipe : Pipe) : System :=
  { s with pipes := s.pipes.map fun entry => if entry.1 = number then (number, pipe) else entry }

/-- Opens a file, under a number of its own. -/
def openNew (s : System) (file : OpenFile) : Nat × System :=
  (s.next, { s with opened := (s.next, file) :: s.opened, next := s.next + 1 })

def newPipe (s : System) (pipe : Pipe) : Nat × System :=
  (s.next, { s with pipes := (s.next, pipe) :: s.pipes, next := s.next + 1 })

/-- Forgets the files and pipes from a number on, but for those that somebody still has. -/
def forgetFrom (s : System) (first : Nat) (descriptors : List (Nat × Nat)) : System :=
  if s.next = first then s
  else
    let held := (descriptors ++ s.waiting.flatMap (·.process.descriptors)).map Prod.snd
    let opened := s.opened.filter fun (id, _) => id < first ∨ held.contains id
    let isHeld (number : Nat) := opened.any fun (_, file) => file.channel = .pipe number
    { s with opened, pipes := s.pipes.filter fun (number, _) => number < first ∨ isHeld number }

/-- What an open file holds from its position on, at most so many octets of it where there is no end. -/
def content (s : System) (file : OpenFile) (limit : Nat) : Except Fault Bytes :=
  match file.channel with
  | .file l => (s.files.contents l).map (·.drop file.position)
  | .removed data => .ok (data.drop file.position)
  | .directory _ => .error .isADirectory
  | .pipe number => .ok (s.pipe number).content
  | .nothing => .ok []
  | .zeros | .full => .ok (List.replicate limit 0)

/-- Takes so many octets away from what is still to be read. -/
def advance (s : System) (id : Nat) (file : OpenFile) (count : Nat) (sawEnd : Bool) : System :=
  match file.channel with
  | .pipe number =>
    let p := s.pipe number
    s.setPipe number { p with unread := p.content.drop count, fresh := [], drained := p.drained || sawEnd }
  | _ => s.setOpenFile id { file with position := file.position + count }

/-- The data of a file after a write at a position. -/
def overwritten (before : Bytes) (position : Nat) (data : Bytes) : Bytes :=
  if position = before.length then before ++ data
  else
    let gap := List.replicate (position - before.length) 0
    before.take position ++ gap ++ data ++ before.drop (position + data.length)

end System

def fileOf (descriptor : Nat) : Eval (Option (Nat × OpenFile)) := do
  let m ← get
  return (m.process.descriptors.lookup descriptor).bind fun id =>
    (m.system.openFile? id).map fun file => (id, file)

def badDescriptor : Fault := .other "Bad file descriptor"

/-- So much is read where there is no end. -/
def endless : Nat := 1000000

/-- What can be read at a descriptor, which is then read. -/
def readAll (descriptor : Nat) : Eval (Except Fault Bytes) := do
  match ← fileOf descriptor with
  | none => return .error badDescriptor
  | some (id, file) =>
    if ¬ file.reads then return .error badDescriptor
    match (← getSystem).content file endless with
    | .error fault => return .error fault
    | .ok data =>
      modifySystem fun s => s.advance id file data.length true
      return .ok data

/-- What can be read at a descriptor, which is left as it is. -/
def peekAll (descriptor limit : Nat) : Eval (Except Fault Bytes) := do
  match ← fileOf descriptor with
  | none => return .error badDescriptor
  | some (_, file) =>
    if ¬ file.reads then return .error badDescriptor
    return (← getSystem).content file limit

/-- Takes octets that were looked at before; `sawEnd` tells that more were asked for than there were. -/
def skip (descriptor count : Nat) (sawEnd : Bool) : Eval Unit := do
  if let some (id, file) ← fileOf descriptor then
    modifySystem fun s => s.advance id file count sawEnd

/-- Writes at a descriptor. A pipe that is full stops the process. -/
def writeOctets (descriptor : Nat) (data : Bytes) : Eval (Except Fault Unit) := do
  if data = [] then return .ok ()
  match ← fileOf descriptor with
  | none => return .error badDescriptor
  | some (id, file) =>
    if ¬ file.writes then return .error badDescriptor
    let s ← getSystem
    match file.channel with
    | .nothing | .zeros => return .ok ()
    | .full => return .error (.noSpace)
    | .directory _ => return .error .isADirectory
    | .removed before =>
      let position := if file.appends then before.length else file.position
      modifySystem (·.setOpenFile id { file with
        channel := .removed (System.overwritten before position data), position := position + data.length })
      return .ok ()
    | .file l =>
      match s.files.contents l with
      | .error fault => return .error fault
      | .ok before =>
        let position := if file.appends then before.length else file.position
        let files := s.files.fill l (System.overwritten before position data)
        set { (← get) with
          system := { s with files }.setOpenFile id { file with position := position + data.length } }
        return .ok ()
    | .pipe number =>
      let p := s.pipe number
      match p.capacity with
      | some capacity =>
        if capacity ≤ p.size + data.length then
          let kept := data.take (capacity - p.size)
          modifySystem (·.setPipe number { p with
            fresh := kept.reverse ++ p.fresh, size := p.size + kept.length, overrun := true })
          throw (.killed brokenPipe)
        else modifySystem (·.setPipe number { p with
          fresh := data.reverse ++ p.fresh, size := p.size + data.length })
      | none => modifySystem (·.setPipe number { p with
          fresh := data.reverse ++ p.fresh, size := p.size + data.length })
      return .ok ()

/-- Writes text, and does not care whether anybody gets it. -/
def say (descriptor : Nat) (text : Text) : Eval Unit := do
  let _ ← writeOctets descriptor (toOctets text)

/-- Writes text to the standard output, and remembers if it is lost. -/
def answer (text : Text) : Eval Unit := do
  match ← writeOctets 1 (toOctets text) with
  | .ok _ => return
  | .error _ => modifyProcess fun p => { p with lostOutput := true }

def answerLine (text : Text) : Eval Unit := answer (text ++ ['\n'])

/-- The shell tells of something under its name, with the line of the command. -/
def warn (message : String) : Eval Unit := do
  let p ← getProcess
  let command := match p.command with
    | some name => s!"{shown name}: "
    | none => ""
  say 2 s!"{shown p.self}: {p.line}: {command}{message}\n".toList

/-- The shell tells of a mistake and does not go on. -/
def failWith {α : Type} (message : String) : Eval α := do
  warn message
  setStatus 2
  throw (.failed 2)

end Unjar.Shell
