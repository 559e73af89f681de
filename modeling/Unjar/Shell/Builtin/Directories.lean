import Unjar.Shell.Builtin.Basic
import Unjar.Shell.Format.Real
import Unjar.Shell.Permission

/-!
The commands for the current directory and the mask of new files.
-/

namespace Unjar.Shell

/-- The way from a directory along a path, by spelling alone. -/
def wayAlong (here path : Text) : Text :=
  let start := if path.head? = some '/' then [] else (here.splitOn '/').filter (· ≠ [])
  let double := path.take 2 = ['/', '/'] ∧ (path.drop 2).head? ≠ some '/'
  let names := (path.splitOn '/').foldl (fun names name =>
    if name = [] ∨ name = ['.'] then names
    else if name = ['.', '.'] then names.dropLast
    else names ++ [name]) start
  (if double then ['/', '/'] else ['/']) ++ List.intercalate ['/'] names

def isOutright (path : Text) : Bool :=
  path.head? = some '/' || path = ['.'] || path = ['.', '.'] || "./".toList.isPrefixOf path ||
    "../".toList.isPrefixOf path

/-- The directories in which a relative path is looked for, each with whether the result is told. -/
def placesOf (searched path : Text) : List (Text × Bool) :=
  if searched = [] ∨ isOutright path then []
  else (searched.splitOn ':').map fun directory =>
    if directory = [] then (path, false) else (directory ++ '/' :: path, true)

def changeDirectory : Builtin := fun arguments => do
  let (found, operands) ← options "LP" arguments
  let physical := found.getLast?.any fun option => option.1 = 'P'
  let p ← getProcess
  let fs ← getFiles
  let (path, isBack) := match operands with
    | ['-'] :: _ => (p.value "OLDPWD", true)
    | path :: _ => (path, false)
    | [] => (p.value "HOME", false)
  let path := if path = [] then ['.'] else path
  let isDirectory (path : Text) : Bool := (fs.isDirectory (pathOf path))
  let (target, isFound) := ((placesOf (p.value "CDPATH") path).find? fun place => isDirectory place.1).getD (path, false)
  let way := wayAlong p.way target
  let aim := pathOf (if physical then target else way)
  match fs.locateAdmitted .use aim with
  | .ok l =>
    if ¬ fs.isDirectoryAt l ∨ ¬ fs.permits FileSystem.searchBit l then failWith s!"can't cd to {shown (operands.headD path)}"
    let way := if physical then locationText l else way
    modifyProcess fun p => { p with here := l, way }
    setVariable "OLDPWD" p.way
    setVariable "PWD" way
    changeVariable "OLDPWD".toList fun v => { v with exported := true }
    changeVariable "PWD".toList fun v => { v with exported := true }
    if isBack ∨ isFound then answerLine way
    setStatus 0
  | .error _ => failWith s!"can't cd to {shown (operands.headD path)}"

def showDirectory : Builtin := fun arguments => do
  let (found, _) ← options "LP" arguments
  let p ← getProcess
  let physical := found.getLast?.any fun option => option.1 = 'P'
  answerLine (if physical then locationText p.here else p.way)
  setStatus 0

/-- The bits of the classes that a change is for. -/
def classPositions (classes : Text) : Nat :=
  classes.foldl (fun bits c => bits ||| match c with
    | 'u' => 0o100
    | 'g' => 0o010
    | 'o' => 0o001
    | _ => 0o111) 0

/-- One change of what a mask lets through, and what is written behind it. -/
def changeMask (allowed : Nat) : Nat → Nat → Nat → Text → Option Nat
  | 0, _, _, _ => none
  | fuel + 1, positions, current, text =>
    let classes := text.takeWhile "augo".toList.contains
    let found := positions ||| classPositions classes
    let positions := if found = 0 then 0o111 else found
    match text.drop classes.length with
    | sign :: rest =>
      if ¬ "=+-".toList.contains sign then if classes = [] ∧ text = [] then some current else none
      else
        let letters := rest.takeWhile "rwxugoXs".toList.contains
        let value := letters.foldl (fun bits c => bits ||| match c with
          | 'r' => 4
          | 'w' => 2
          | 'x' => 1
          | 'u' => allowed >>> 6
          | 'g' => allowed >>> 3
          | 'o' => allowed
          | 'X' => if allowed &&& 0o111 ≠ 0 then 1 else 0
          | _ => 0) 0
        let bits := (value &&& 7) * positions
        let changed := match sign with
          | '-' => current - (current &&& bits)
          | '+' => current ||| bits
          | _ => bits ||| (current - (current &&& (positions * 7)))
        match rest.drop letters.length with
        | [] => some changed
        | ',' :: more => changeMask allowed fuel 0 changed more
        | more =>
          if more.head?.any "=+-".toList.contains then changeMask allowed fuel positions changed more else none
    | [] => if classes = [] then some current else none

/-- The letters for what a class may do. -/
def permissionLetters (bits : Nat) : Text :=
  (if bits &&& 4 ≠ 0 then ['r'] else []) ++ (if bits &&& 2 ≠ 0 then ['w'] else []) ++
    if bits &&& 1 ≠ 0 then ['x'] else []

def changeUserMask : Builtin := fun arguments => do
  let (found, operands) ← options "S" arguments
  let mask := (← getProcess).mask
  let allowed := 0o777 - (mask &&& 0o777)
  setStatus 0
  match operands with
  | [] =>
    if found = [] then answerLine (Real.padded 4 (Nat.toDigits 8 mask))
    else
      let letters (shift : Nat) : String := shown (permissionLetters (allowed >>> shift))
      answerLine s!"u={letters 6},g={letters 3},o={letters 0}".toList
  | text :: _ =>
    if text.head?.any Char.isDigit then
      if text.all (isDigitIn 8) then modifyProcess fun p => { p with mask := valueIn 8 text &&& 0o777 }
      else failWith s!"Illegal number: {shown text}"
    else match changeMask allowed (text.length + 1) 0 allowed text with
      | some changed => modifyProcess fun p => { p with mask := 0o777 - (changed &&& 0o777) }
      | none => failWith s!"Illegal mode: {shown text}"

end Unjar.Shell
