import Unjar.Shell.Editing.Basic
import Unjar.Shell.Utility.Basic

/-!
Running an editing script on the lines of a text.
-/

namespace Unjar.Shell.Editing

/-- A line that is to be edited. Only the last one of an input may lack what ends lines. -/
structure Line where
  text : Text
  isEnded : Bool := true
  /-- The name of the input. -/
  source : Text

/-- Where lines are written. -/
structure Outlet where
  /-- What was written, the latest first. -/
  chunks : List Text := []
  /-- Whether a line was written without its end. -/
  owesEnd : Bool := false
  lineEnd : Char := '\n'

namespace Outlet

/-- Ends the line that has no end. -/
def settle (o : Outlet) : Outlet :=
  if o.owesEnd then { o with chunks := [o.lineEnd] :: o.chunks, owesEnd := false } else o

/-- Writes text as it is. -/
def put (o : Outlet) (text : Text) : Outlet :=
  let o := o.settle
  { o with chunks := text :: o.chunks }

def putLine (o : Outlet) (text : Text) (isEnded : Bool) : Outlet :=
  { o.put (if isEnded then text ++ [o.lineEnd] else text) with owesEnd := !isEnded }

def written (o : Outlet) : Text := o.chunks.reverse.flatten

end Outlet

/-- What is written after a line is done. -/
inductive Sequel where
  | text (t : Text)
  | file (name : Text)
  | lineOf (name : Text)

structure Editor where
  lines : List Line
  number : Nat := 0
  pattern : Text := []
  held : Text := []
  isEnded : Bool := true
  source : Text := ['-']
  hasReplaced : Bool := false
  lastSought : Option Regex := none
  /-- The ranges that were entered, by the places of their instructions, and the lines they end at. -/
  active : List (Nat × Option Nat) := []
  sequels : List Sequel := []
  output : Outlet := {}
  /-- What is written to files. -/
  files : List (Text × Outlet) := []
  /-- What is still to be read of files whose lines are taken one by one. -/
  lineFiles : List (Text × List Line) := []

/-- How a script is run. -/
structure Session where
  self : Text
  quiet : Bool := false
  width : Nat := 70
  lineEnd : Char := '\n'
  extended : Bool := false

/-- The lines of an input. -/
def Session.linesOf (m : Session) (source : Text) (data : Bytes) : List Line :=
  let pieces := (ofOctets data).splitOn m.lineEnd
  let whole := pieces.dropLast.map fun text => ({ text, source } : Line)
  match pieces.getLast? with
  | some [] | none => whole
  | some text => whole ++ [{ text, isEnded := false, source }]

abbrev Act := StateT Editor Eval

def noExpression {α : Type} (m : Session) : Act α :=
  giveUp m.self 1 "-e expression #1, char 0: no previous regular expression"

/-- The regular expression that is meant, which is the last one from then on. -/
def regexOf (m : Session) (s : Sought) : Act Regex := do
  let last := (← get).lastSought
  match s.regex.orElse fun _ => last with
  | some r =>
    modify fun e => { e with lastSought := some r }
    return r
  | none => noExpression m

def isAt (m : Session) : Place → Act Bool
  | .line number => do return (← get).number = number
  | .lastLine => do return (← get).lines.isEmpty
  | .every first step => do
    let number := (← get).number
    return number = first || (0 < step && first ≤ number && (number - first) % step = 0)
  | .found s => do
    let r ← regexOf m s
    return r.isFoundIn s.mode (← get).pattern

def setActive (place : Nat) (stop : Option Nat) : Act Unit :=
  modify fun e => { e with active := (place, stop) :: e.active.filter (·.1 ≠ place) }

def setInactive (place : Nat) : Act Unit :=
  modify fun e => { e with active := e.active.filter (·.1 ≠ place) }

/-- Whether a range starts at the line at hand. It is entered if it has more lines than this one. -/
def enters (m : Session) (place : Nat) (first : Place) (last : RangeEnd) : Act Bool := do
  if ¬ (← isAt m first) then return false
  let number := (← get).number
  match last with
  | .upTo (.line stop) => if number < stop then setActive place (some stop)
  | .upTo .lastLine => if ¬ (← get).lines.isEmpty then setActive place none
  | .upTo _ => setActive place none
  | .after lines => if 0 < lines then setActive place (some (number + lines))
  | .multiple of =>
    if 0 < of then setActive place (some (number + of - number % of))
  return true

/-- Whether the line at hand lies in the range of an instruction. -/
def isInRange (m : Session) (place : Nat) (first : Place) (last : RangeEnd) : Act Bool := do
  let e ← get
  let starts : Bool := match first with
    | .line 0 => e.number = 1 && (e.active.lookup place).isNone
    | _ => false
  match if starts then some none else e.active.lookup place with
  | none => enters m place first last
  | some (some stop) =>
    if stop ≤ e.number then setInactive place
    if e.number ≤ stop then return true else enters m place first last
  | some none =>
    if starts then setActive place none
    match last with
    | .upTo ending => if ← isAt m ending then setInactive place
    | _ => pure ()
    return true

def isSelected (m : Session) (place : Nat) (s : Selection) : Act Bool := do
  let isIn ← match s.first, s.last with
    | none, _ => pure true
    | some first, none => isAt m first
    | some first, some last => isInRange m place first last
  return isIn != s.negated

/-- Writes a line to the output. -/
def showLine (text : Text) : Act Unit :=
  modify fun e => { e with output := e.output.putLine text e.isEnded }

/-- Writes text to the output. -/
def showText (text : Text) : Act Unit :=
  modify fun e => { e with output := e.output.put text }

/-- Writes a line to a file; the standard output has a name as well. -/
def writeLine (name text : Text) : Act Unit :=
  if name = "/dev/stdout".toList then showLine text
  else modify fun e =>
    let outlet := ((e.files.lookup name).getD { lineEnd := e.output.lineEnd }).putLine text e.isEnded
    { e with files := (name, outlet) :: e.files.filter (·.1 ≠ name) }

/-- Writes what comes after a line. A file that cannot be read is left out. -/
def dump (m : Session) : List Sequel → Act Unit
  | [] => modify fun e => { e with sequels := [] }
  | sequel :: rest => do
    match sequel with
    | .text t => showText t
    | .file name =>
      let data ← if name = "/dev/stdin".toList then readAll 0 else contentAt name
      if let .ok data := data then
        if data ≠ [] then showText (ofOctets data)
    | .lineOf name =>
      let lines ← match (← get).lineFiles.lookup name with
        | some lines => pure lines
        | none => pure (m.linesOf name ((← contentAt name).toOption.getD []))
      modify fun e => { e with lineFiles := (name, lines.tail) :: e.lineFiles.filter (·.1 ≠ name) }
      if let line :: _ := lines then
        modify fun e => { e with output := e.output.putLine line.text line.isEnded }
    dump m rest

def dumpAll (m : Session) : Act Unit := do dump m (← get).sequels

/-- Goes on to the next line, unless there is none. -/
def advance (m : Session) (join : Bool) : Act Bool := do
  match (← get).lines with
  | [] => return false
  | line :: lines =>
    dumpAll m
    modify fun e => { e with
      lines
      number := e.number + 1
      pattern := if join then e.pattern ++ m.lineEnd :: line.text else line.text
      isEnded := line.isEnded
      source := line.source
      hasReplaced := false }
    return true

/-- Text with its characters spelled out. -/
def spelled (c : Char) : Text :=
  let octal (n : Nat) : Text := (Nat.toDigits 8 n).leftpad 3 '0'
  match c with
  | '\\' => ['\\', '\\']
  | '\x07' => ['\\', 'a']
  | '\x08' => ['\\', 'b']
  | '\x0c' => ['\\', 'f']
  | '\n' => ['\\', 'n']
  | '\x0d' => ['\\', 'r']
  | '\t' => ['\\', 't']
  | '\x0b' => ['\\', 'v']
  | c => if c.toNat < 32 ∨ 126 < c.toNat then '\\' :: octal c.toNat else [c]

/-- Spelled characters in lines of a width; none is as wide as need be. -/
def spelledLines (width : Nat) : List Text → Nat → Text
  | [], _ => ['$', '\n']
  | c :: rest, used =>
    if 0 < width ∧ width < used + c.length + 1 then '\\' :: '\n' :: c ++ spelledLines width rest c.length
    else c ++ spelledLines width rest (used + c.length)

/-- How a line is done with. -/
inductive Outcome where
  /-- The end of the script was reached. -/
  | done
  /-- The line is dropped. -/
  | dropped
  /-- The script starts again with what is left of the line. -/
  | restarted
  | finished (shows : Bool) (status : Nat)

/-- Runs a script from a place on. -/
def runFrom (m : Session) (script : Script) : Nat → Nat → Act Outcome
  | 0, _ => fun _ => throw .exhausted
  | fuel + 1, place => do
    match script[place]? with
    | none => return .done
    | some i =>
      let goOn := runFrom m script fuel (place + 1)
      if ¬ (← isSelected m place i.selection) then
        match i.edit with
        | .block stop => runFrom m script fuel (stop + 1)
        | _ => goOn
      else
        let jump (name : Text) := match script.placeOf? name with
          | some place => runFrom m script fuel (place + 1)
          | none => return .done
        let e ← get
        let firstLine := e.pattern.takeWhile (· ≠ m.lineEnd)
        match i.edit with
        | .block _ | .blockEnd | .label _ => goOn
        | .append text =>
          set { e with sequels := e.sequels ++ [Sequel.text text] }
          goOn
        | .insert text =>
          showText text
          goOn
        | .change text =>
          let isInside := i.selection.last.isSome && !i.selection.negated && (e.active.lookup place).isSome
          unless isInside do showText text
          return .dropped
        | .jump name => jump name
        | .jumpIfReplaced name =>
          set { e with hasReplaced := false }
          if e.hasReplaced then jump name else goOn
        | .jumpUnlessReplaced name =>
          set { e with hasReplaced := false }
          if e.hasReplaced then goOn else jump name
        | .delete => return .dropped
        | .deleteLine =>
          if firstLine.length = e.pattern.length then return .dropped
          set { e with pattern := e.pattern.drop (firstLine.length + 1) }
          return .restarted
        | .showName =>
          showText (e.source ++ ['\n'])
          goOn
        | .showNumber =>
          showText (decimalOf e.number ++ ['\n'])
          goOn
        | .takeHeld =>
          set { e with pattern := e.held }
          goOn
        | .takeHeldToo =>
          set { e with pattern := e.pattern ++ m.lineEnd :: e.held }
          goOn
        | .hold =>
          set { e with held := e.pattern }
          goOn
        | .holdToo =>
          set { e with held := e.held ++ m.lineEnd :: e.pattern }
          goOn
        | .exchange =>
          set { e with pattern := e.held, held := e.pattern }
          goOn
        | .spell width =>
          showText (spelledLines (width.getD m.width) (e.pattern.map spelled) 0)
          goOn
        | .next =>
          if e.lines.isEmpty then return .finished true 0
          unless m.quiet do showLine e.pattern
          let _ ← advance m false
          goOn
        | .nextToo =>
          if ← advance m true then goOn else return .finished true 0
        | .showText =>
          showLine e.pattern
          goOn
        | .showLine =>
          modify fun e => { e with output := e.output.putLine firstLine true }
          goOn
        | .quit silently status => return .finished (!silently) status
        | .readFile name =>
          set { e with sequels := e.sequels ++ [Sequel.file name] }
          goOn
        | .readLine name =>
          set { e with sequels := e.sequels ++ [Sequel.lineOf name] }
          goOn
        | .replace r =>
          let regex ← regexOf m r.sought
          if let some text := r.replaced? regex e.pattern then
            modify fun e => { e with pattern := text, hasReplaced := true }
            if r.shows then showLine text
            if let some name := r.file then writeLine name text
          goOn
        | .writeTo name =>
          writeLine name e.pattern
          goOn
        | .writeLineTo name =>
          writeLine name firstLine
          goOn
        | .exchangeChars pairs =>
          set { e with pattern := e.pattern.map fun c => (pairs.lookup c).getD c }
          goOn
        | .clear =>
          set { e with pattern := [] }
          goOn

/-- So many instructions are run on one line at most. -/
def instructionsMax : Nat := 100000

/-- Runs a script on one line after the other, and gives the status to quit with. -/
def cycle (m : Session) (script : Script) : Nat → (reads : Bool) → Act (Option Nat)
  | 0, _ => fun _ => throw .exhausted
  | fuel + 1, reads => do
    if reads then
      if ¬ (← advance m false) then return none
    let outcome ← runFrom m script instructionsMax 0
    let finishLine (shows : Bool) : Act Unit := do
      if shows ∧ ¬ m.quiet then showLine (← get).pattern
      dumpAll m
    match outcome with
    | .done =>
      finishLine true
      cycle m script fuel true
    | .dropped =>
      finishLine false
      cycle m script fuel true
    | .restarted =>
      finishLine false
      cycle m script fuel false
    | .finished shows status =>
      finishLine shows
      return some status

/-- Runs a script on some lines. -/
def run (m : Session) (script : Script) (e : Editor) : Eval (Option Nat × Editor) :=
  let size := e.lines.foldl (fun soFar line => soFar + (line.text.length + 1)) 0
  (cycle m script (size + instructionsMax) true).run e

end Unjar.Shell.Editing
