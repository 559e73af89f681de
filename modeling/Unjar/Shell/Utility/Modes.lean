import Unjar.Shell.Utility.Basic

/-!
The modes of files, by numbers or by changes such as `u+x`.
-/

namespace Unjar.Shell

/-- A change of modes: classes, a sign, and what is given or taken. -/
structure ModeChange where
  classes : Text
  sign : Char
  letters : Text

/-- A mode as it is written. -/
inductive ModeRule where
  | number (mode : Nat) (digits : Nat)
  | changes (changes : List ModeChange)

namespace ModeRule

def isSign (c : Char) : Bool := "+-=".toList.contains c

/-- The signs and letters of one clause behind its classes. -/
def clauseFrom (classes : Text) : Nat → Text → Option (List ModeChange)
  | 0, _ | _, [] => some []
  | fuel + 1, sign :: rest =>
    if ¬ isSign sign then none
    else
      let letters := rest.takeWhile (¬ isSign ·)
      let isCopy := letters.length = 1 ∧ letters.all "ugo".toList.contains
      if letters.all "rwxXst".toList.contains ∨ isCopy then
        (clauseFrom classes fuel (rest.drop letters.length)).map ({ classes, sign, letters } :: ·)
      else none

def ofText? (text : Text) : Option ModeRule :=
  if text = [] then none
  else if text.all (isDigitIn 8) then
    if valueIn 8 text ≤ 0o7777 then some (.number (valueIn 8 text) text.length) else none
  else
    let clause? (part : Text) : Option (List ModeChange) :=
      let classes := part.takeWhile "ugoa".toList.contains
      match part.drop classes.length with
      | [] => none
      | rest => clauseFrom classes (rest.length + 1) rest
    ((text.splitOn ',').mapM clause?).map fun clauses => .changes clauses.flatten

def classBits (classes : Text) : Nat :=
  classes.foldl (fun bits c => bits ||| match c with
    | 'u' => 0o4700
    | 'g' => 0o2070
    | 'o' => 0o1007
    | _ => 0o7777) 0

/-- The bits of a class, for everyone. -/
def spread (bits : Nat) : Nat := (bits &&& 7) * 0o111

/-- The bits that letters stand for, for everyone. -/
def letterBits (directory : Bool) (old : Nat) (letters : Text) : Nat :=
  letters.foldl (fun bits c => bits ||| match c with
    | 'r' => 0o444
    | 'w' => 0o222
    | 'x' => 0o111
    | 'X' => if directory ∨ old &&& 0o111 ≠ 0 then 0o111 else 0
    | 's' => 0o6000
    | 't' => 0o1000
    | 'u' => spread (old >>> 6)
    | 'g' => spread (old >>> 3)
    | _ => spread old) 0

/-- A mode after one change. Without classes the masked bits are left alone. -/
def applyChange (mask : Nat) (directory : Bool) (old : Nat) (c : ModeChange) : Nat :=
  let reach := if c.classes = [] then 0o7777 - mask else classBits c.classes
  let bits := letterBits directory old c.letters &&& reach
  let kept := if c.classes = [] then 0o7777 else classBits c.classes
  match c.sign with
  | '+' => old ||| bits
  | '-' => old - (old &&& bits)
  | _ => (old - (old &&& (kept &&& if directory then 0o1777 else 0o7777))) ||| bits

/-- A directory keeps its special bits unless a number says more than the usual digits. -/
def apply (mask : Nat) (directory : Bool) (old : Nat) : ModeRule → Nat
  | number mode digits => mode ||| if directory ∧ digits < 5 then old &&& 0o6000 else 0
  | changes cs => cs.foldl (applyChange mask directory) old

end ModeRule

def isModeOption (argument : Text) : Bool :=
  match argument with
  | '-' :: letters => letters ≠ [] && letters.all "rwxXstugo,+-=0123456789".toList.contains
  | _ => false

def modeGrammar : Grammar where
  letters := "Rvcf"
  names := [("recursive", 'R'), ("verbose", 'v'), ("changes", 'c'), ("silent", 'f'), ("quiet", 'f')]

def octalText (mode : Nat) : String :=
  let digits := Nat.toDigits 8 mode
  String.ofList (List.replicate (4 - digits.length) '0' ++ digits)

/-- A mode as letters. -/
def modeLetters (mode : Nat) : String :=
  let letter (bit : Nat) (c : Char) : Char := if mode &&& bit ≠ 0 then c else '-'
  let execution (bit special : Nat) (both alone : Char) : Char :=
    if mode &&& special ≠ 0 then (if mode &&& bit ≠ 0 then both else alone) else letter bit 'x'
  String.ofList [letter 0o400 'r', letter 0o200 'w', execution 0o100 0o4000 's' 'S', letter 0o040 'r',
    letter 0o020 'w', execution 0o010 0o2000 's' 'S', letter 0o004 'r', letter 0o002 'w',
    execution 0o001 0o1000 't' 'T']

def modeOf : Node → Nat
  | .file mode _ | .directory mode => mode
  | _ => 0o777

def withMode (mode : Nat) : Node → Node
  | .file _ data => .file mode data
  | .directory _ => .directory mode
  | node => node

def changeModes : Utility := fun self arguments => do
  let (modes, others) := match arguments.find? isModeOption with
    | some mode => ([mode], arguments.filter (· ≠ mode))
    | none => ([], arguments)
  let g ← modeGrammar.read self others
  let (text, names) ← match modes, g.operands with
    | mode :: _, names => pure (mode, names)
    | [], mode :: names => pure (mode, names)
    | [], [] => missingOperand self
  if names = [] then misused self 1 s!"missing operand after {quoted text}"
  match ModeRule.ofText? text with
  | none => misused self 1 s!"invalid mode: {quoted text}"
  | some rule =>
    let mask := (← getProcess).mask
    for name in names do
      let fs ← getFiles
      match fs.locateAdmitted .use (pathOf name) with
      | .error fault =>
        if fs.locateAdmitted .inspect (pathOf name) |>.toBool then
          fails self s!"cannot operate on dangling symlink {quoted name}"
        else cannot self "cannot access" name fault
      | .ok l =>
        let below := if g.has "R" then (fs.nodes.map Prod.fst).filter fun place => l.isPrefixOf place && place ≠ l
          else []
        for place in l :: Bytes.sortBy (fun place => (Path.ofComponents (place.map Component.name)).text) below do
          if let some node := fs.node? place then
            let mode := rule.apply mask node.isDirectory (modeOf node)
            match node with
            | .file .. | .directory _ =>
              setFiles ((← getFiles).put place (withMode mode node))
              let shownName := name ++ (place.drop l.length).flatMap fun part => '/' :: ofOctets part
              let states := s!"{octalText (modeOf node)} ({modeLetters (modeOf node)})"
              if mode ≠ (modeOf node) ∧ g.has "vc" then
                emitLine self
                  s!"mode of {quoted shownName} changed from {states} to {octalText mode} ({modeLetters mode})".toList
              else if mode = (modeOf node) ∧ g.has "v" then
                emitLine self s!"mode of {quoted shownName} retained as {states}".toList
            | _ => pure ()

end Unjar.Shell
