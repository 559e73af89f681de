import Unjar.Shell.Editing.Reader
import Unjar.Shell.Editing.Run

/-!
The program that edits lines by a script.
-/

namespace Unjar.Shell

namespace Editing

def grammar : Grammar where
  letters := "ne:f:Ersizul:bPD"
  names := [("quiet", 'n'), ("silent", 'n'), ("expression", 'e'), ("file", 'f'), ("regexp-extended", 'E'),
    ("separate", 's'), ("in-place", 'i'), ("null-data", 'z'), ("zero-terminated", 'z'), ("unbuffered", 'u'),
    ("line-length", 'l'), ("binary", 'b'), ("posix", 'P')]
  attached := "i"

/-- A piece of a script, and whether it is an expression or what a file holds. -/
structure ScriptPiece where
  file : Option Text := none
  text : Text

namespace ScriptPiece

/-- An expression that ends with a backslash goes on in the next one. -/
def joined : List ScriptPiece → List ScriptPiece
  | first :: second :: rest =>
    let slashes := (first.text.reverse.takeWhile (· = '\\')).length
    if first.file.isNone ∧ second.file.isNone ∧ slashes % 2 = 1 then
      joined ({ text := first.text ++ '\n' :: second.text } :: rest)
    else first :: joined (second :: rest)
  | pieces => pieces
termination_by pieces => pieces.length

/-- What is wrong with a piece, of which this is the number among the expressions. -/
def complaint (p : ScriptPiece) (number : Nat) (mistake : Mistake) : String :=
  match p.file with
  | none => "-e expression #" ++ s!"{number}, char {mistake.place}: {mistake.message}"
  | some name =>
    let line := (p.text.take (mistake.place - 1)).count '\n' + 1
    s!"file {shown name} line {line}: {mistake.message}"

end ScriptPiece

/-- Reads the pieces of a script. -/
def readScript (m : Session) : List ScriptPiece → Nat → Reading → Eval Script
  | [], _, r => do
    if r.blocks ≠ [] then
      giveUp m.self 1 ("-e expression #1, char 0: unmatched " ++ named '\x7b')
    match Script.missingLabel? r.instructions with
    | some name => giveUp m.self 1 ("can't find label for jump to " ++ String.ofList (backQuotation :: name) ++ "'")
    | none => return r.instructions
  | piece :: rest, number, r => do
    match readPiece m.extended r piece.text with
    | .ok r => readScript m rest (number + 1) r
    | .error mistake => giveUp m.self 1 (piece.complaint number mistake)

def openingFailed {α : Type} (m : Session) (name : Text) (fault : Fault) : Eval α :=
  giveUp m.self 4 s!"couldn't open file {shown name}: {fault.reason}"

def piecesOf (m : Session) (g : Given) : Eval (List ScriptPiece × List Text) := do
  match g.options.filter fun option => option.1 = 'e' ∨ option.1 = 'f', g.operands with
  | [], [] => do
    say 2 (s!"Usage: {shown m.self} [OPTION]... \x7bscript-only-if-no-other-script\x7d [input-file]...\n").toList
    throw (.exit 1)
  | [], text :: operands => return ([{ text }], operands)
  | given, operands => do
    let mut pieces : List ScriptPiece := []
    for (letter, text) in given do
      if letter = 'e' then pieces := pieces ++ [{ text := text }]
      else match ← inputOf text with
        | .ok data =>
          let content := ofOctets data
          let body := if content.getLast? = some '\n' then content.dropLast else content
          pieces := pieces ++ [{ file := some text, text := body }]
        | .error fault => openingFailed m text fault
    return (ScriptPiece.joined pieces, operands)

/-- Whether a script asks to be quiet in its first line. -/
def asksForQuiet (pieces : List ScriptPiece) : Bool :=
  match pieces with
  | { text := '#' :: 'n' :: rest, .. } :: _ => rest.head?.all (· = '\n')
  | _ => false

/-- The lines of an input, if it can be read. -/
def inputLines (m : Session) (name : Text) : Eval (Option (List Line)) := do
  match ← inputOf name with
  | .ok data => return some (m.linesOf name data)
  | .error .isADirectory => giveUp m.self 4 s!"read error on {shown name}: {Fault.reason .isADirectory}"
  | .error fault =>
    complain m.self s!"can't read {shown name}: {fault.reason}"
    setStatus 2
    return none

/-- Writes to a file as a whole. -/
def writeWhole (m : Session) (name text : Text) : Eval Unit := do
  if name = "/dev/stderr".toList then say 2 text
  else match Permission.write (← getFiles) (← getProcess).mask (pathOf name) (toOctets text) with
    | .ok files => setFiles files
    | .error fault => openingFailed m name fault

/-- The name that a file is kept under. -/
def backupName (suffix name : Text) : Text :=
  let base := baseName name
  let kept := if suffix.contains '*' then suffix.flatMap fun c => if c = '*' then base else [c] else base ++ suffix
  if kept.contains '/' then kept
  else if name.contains '/' then childOf (directoryName name) kept else kept

/-- Puts an edited text in the place of a file. -/
def replaceFile (m : Session) (suffix name text : Text) : Eval Unit := do
  let fs ← getFiles
  match fs.locate .inspect (pathOf name), fs.stat? (pathOf name) with
  | .ok l, some (.file mode data) =>
    if suffix ≠ [] then
      let kept := backupName suffix name
      match Permission.make ((← getFiles).prune l) (pathOf kept) fun _ => .file mode data with
      | .ok files => setFiles files
      | .error _ =>
        match (← getFiles).locate .inspect (pathOf kept) with
        | .ok there => modifySystem fun s => { s with files := s.files.put there (.file mode data) }
        | .error fault => giveUp m.self 4 s!"cannot rename {shown name}: {fault.reason}"
    modifySystem fun s => { s with files := (s.files.prune l).put l (.file mode (toOctets text)) }
  | _, _ => return

end Editing

open Editing in
def editLines : Utility := fun self arguments => do
  let g ← Editing.grammar.read self arguments
  let width := ((g.argument? 'l').map (valueIn 10)).getD 70
  let m : Session := {
    self
    width := if width = 1 then 0 else width
    lineEnd := if g.has "z" then '\x00' else '\n'
    extended := g.has "Er" }
  let (pieces, operands) ← Editing.piecesOf m g
  let m := { m with quiet := g.has "n" || asksForQuiet pieces }
  let script ← readScript m pieces 1 { rest := [] }
  let names := (script.flatMap fun i => i.edit.files).eraseDups.filter (· ≠ "/dev/stdout".toList)
  for name in names do writeWhole m name []
  let output : Outlet := { lineEnd := m.lineEnd }
  let files := names.map fun name => (name, output)
  let quit (status : Option Nat) : Eval Unit := do
    let earlier := (← getProcess).status
    if let some status := status then throw (.exit (if status = 0 then earlier else status))
  let finish (e : Editor) : Eval Unit := do
    for (name, outlet) in e.files do
      if outlet.chunks ≠ [] then writeWhole m name outlet.written
  match g.argument? 'i', g.has "s" with
  | none, false =>
    let mut lines := []
    for name in inputsOf operands do
      if let some more ← inputLines m name then lines := lines ++ more
    let (status, e) ← Editing.run m script { lines, output, files }
    emit self (toOctets e.output.written)
    finish e
    quit status
  | none, true =>
    let mut e : Editor := { lines := [], output, files }
    for name in inputsOf operands do
      if let some lines ← inputLines m name then
        let (status, after) ← Editing.run m script { e with lines, number := 0, active := [] }
        e := after
        if status.isSome ∧ status ≠ some 0 then
          emit self (toOctets e.output.written)
          quit status
    emit self (toOctets e.output.written)
    finish e
  | some suffix, _ =>
    if operands = [] then giveUp self 4 "no input files"
    let mut e : Editor := { lines := [], output, files }
    for name in operands do
      match (← getFiles).stat? (pathOf name) with
      | some (.file ..) =>
        if let some lines ← inputLines m name then
          let (status, after) ← Editing.run m script { e with lines, number := 0, active := [], output }
          let rest := (after.lines.map fun line => line.text ++ if line.isEnded then ['\n'] else []).flatten
          replaceFile m suffix name (after.output.written ++ rest)
          e := after
          if after.lines ≠ [] ∨ (status ≠ none ∧ status ≠ some 0) then quit status
      | some _ =>
        complain self s!"couldn't edit {shown name}: not a regular file"
        setStatus 4
      | none =>
        complain self s!"can't read {shown name}: {Fault.reason .notFound}"
        setStatus 2
    finish e

end Unjar.Shell
