import Unjar.Launcher
import Unjar.Shell.Starting
import Unjar.Shell.Utility

/-!
What is run when a program is started. A file that may be run is a script: its first line names its
interpreter, which may be a script again. The programs in the directories of the system are known by
their names.
-/

namespace Unjar.Shell

inductive Program where
  | shell
  | utility (run : Utility)
  /-- One that starts other programs. -/
  | starter (run : Starting → Utility)

def systemDirectories : List Location :=
  [[ascii "bin"], [ascii "usr", ascii "bin"]]

def shellNames : List String := ["sh", "dash", "bash"]

def program? (name : String) : Option Program :=
  if shellNames.contains name then some .shell
  else match starters.lookup name with
    | some run => some (.starter run)
    | none => (utilities.lookup name).map .utility

/-- The program of the system that a path leads to. -/
def systemProgram? (fs : FileSystem) (p : Path) : Option Program :=
  match fs.locateAdmitted .use p with
  | .ok l =>
    if systemDirectories.contains l.dropLast then (l.getLast?).bind fun name => program? (Utf8.display name)
    else none
  | .error _ => none

/-- How a compiled program starts. -/
def compiled : Bytes := 0x7F :: ascii "ELF"

/-- The mode of what belongs to the system: everybody may use it, and nobody may change it. -/
def systemMode : Nat := 0o555

def deviceDirectory : Location := [ascii "dev"]

/-- The directory of the open files, which are named by their numbers. -/
def descriptorDirectory : Location := deviceDirectory ++ [ascii "fd"]

def devices : List (Location × Device) :=
  let named (names : List (String × Device)) (directory : Location) : List (Location × Device) :=
    names.map fun (name, device) => (directory ++ [ascii name], device)
  named [("null", .null), ("zero", .zeros), ("full", .full), ("stdin", .input), ("stdout", .output),
      ("stderr", .errors), ("tty", .terminal)] deviceDirectory ++
    named [("0", .input), ("1", .output), ("2", .errors)] descriptorDirectory

/-- What every system has: directories, programs and devices. -/
def systemNodes : List (Location × Node) :=
  let directories : List Location := [[], [ascii "bin"], [ascii "usr"], [ascii "usr", ascii "bin"], deviceDirectory,
    descriptorDirectory]
  let names := shellNames ++ starters.map Prod.fst ++ utilities.map Prod.fst
  directories.map (·, .directory systemMode) ++ ([ascii "tmp"], .directory 0o1777) ::
    devices.map (fun (l, device) => (l, .device device)) ++
    systemDirectories.flatMap fun directory =>
      names.map fun name => (directory ++ [ascii name], .file systemMode compiled)

/-- The first line of a script: what runs it, and one argument for that. -/
structure Interpreter where
  path : Path
  argument : Option Bytes
  deriving DecidableEq

def isBlankOctet (octet : UInt8) : Bool :=
  octet == 0x20 || octet == 0x09

def dropBlankOctets (octets : Bytes) : Bytes :=
  octets.dropWhile isBlankOctet

def trimBlankOctets (octets : Bytes) : Bytes :=
  (dropBlankOctets (dropBlankOctets octets).reverse).reverse

/-- So many octets of a file are looked at to see what it is. -/
def headSize : Nat := 256

/-- A path and an argument that stand apart. The argument is everything behind the blanks, also if
that is nothing. -/
def Interpreter.ofLine (line : Bytes) : Interpreter :=
  let path := line.takeWhile (¬ isBlankOctet ·)
  let argument := match line.drop path.length with
    | [] => none
    | apart => some (dropBlankOctets apart)
  { path := ⟨path⟩, argument }

/-- The interpreter that a file names. A line that is cut off at the end of the head must at least
show its path to the end, and its last octet is only looked at for that. A line that ends with the file
may end in blanks, and in a NUL. -/
def interpreter? (data : Bytes) : Option Interpreter :=
  match data with
  | 0x23 :: 0x21 :: _ =>
    let head := (data.take headSize).drop 2
    let line := head.takeWhile (fun octet => octet ≠ 0x0A ∧ octet ≠ 0)
    if head[line.length]? = some 0x0A then
      let line := trimBlankOctets line
      if line = [] then none else some (.ofLine line)
    else if headSize ≤ data.length ∧ line.length = head.length then
      let shown := dropBlankOctets line
      if shown.all (¬ isBlankOctet ·) then none else some (.ofLine (trimBlankOctets line.dropLast))
    else some (.ofLine (dropBlankOctets line))
  | _ => none

/-- A program with the words it is started with, its own name first. -/
structure Image where
  program : Program
  words : List Bytes

/-- What a program turns out to be. -/
inductive Found where
  | image (i : Image)
  /-- A file that may be run, but does not say by what. -/
  | plainFile (p : Path)

def scriptsMax : Nat := 5

/-- What is run for a file: the file is checked before it counts as one script too many. -/
def imageOf (fs : FileSystem) : Nat → Path → List Bytes → Except Fault Image
  | fuel, file, words =>
    match systemProgram? fs file with
    | some program =>
      match fuel with
      | 0 => .error .tooManyLinks
      | _ => .ok { program, words }
    | none => do
      if file.text = [] then throw .permissionDenied
      let data ← fs.executable file
      match fuel with
      | 0 => throw .tooManyLinks
      | fuel + 1 =>
        match interpreter? data with
        | none => throw .notExecutable
        | some interpreter =>
          let name := interpreter.path.text
          imageOf fs fuel interpreter.path (name :: interpreter.argument.toList ++ file.text :: words.tail)

def found (fs : FileSystem) (file : Path) (words : List Bytes) : Except Fault Found :=
  match imageOf fs (scriptsMax + 1) file words with
  | .ok i => .ok (.image i)
  | .error .notExecutable => .ok (.plainFile file)
  | .error fault => .error fault

/-- The first directory of the search path that has the program decides, but one in which it may not
be run is passed over, and told of only if no other has it. -/
def search (fs : FileSystem) (name : Bytes) (words : List Bytes) (forbidden : Bool) :
    List Path → Except Fault Found
  | [] => .error (if forbidden then .permissionDenied else .notFound)
  | directory :: rest =>
    match found fs (directory.child name) words with
    | .error .permissionDenied => search fs name words true rest
    | .error .notFound | .error .notADirectory => search fs name words forbidden rest
    | result => result

/-- What is run for a program: only a name without a slash is searched for. -/
def load (fs : FileSystem) (searchPath : List Path) (program : Path) (words : List Bytes) :
    Except Fault Found :=
  if program.text = [] then .error .notFound
  else if program.text.contains slash then found fs program words
  else if nameMax < program.text.length then .error .nameTooLong
  else search fs program.text words false searchPath

end Unjar.Shell
