import Unjar.Shell.Builtin.Signals
import Unjar.Shell.Condition
import Unjar.Shell.Format
import Unjar.Shell.Machine.Clock
import Unjar.Shell.Utility.Basic

/-!
Programs that write text of their own, wait, or only succeed or fail.
-/

namespace Unjar.Shell

def doNothing (status : Nat) : Utility := fun _ _ => setStatus status

/-- Whether a word is made of the options of `echo`. -/
def isEchoOption : Text → Bool
  | '-' :: letter :: letters => (letter :: letters).all "neE".toList.contains
  | _ => false

def echoLine : Utility := fun self arguments => do
  let options := arguments.takeWhile isEchoOption
  let letters := options.flatten
  let text := List.intercalate [' '] (arguments.drop options.length)
  let escapes := (letters.reverse.find? fun c => c = 'e' ∨ c = 'E') = some 'e'
  let (text, isEnded) := if escapes then unescape text else (text, false)
  setStatus 0
  emit self (toOctets (if letters.contains 'n' ∨ isEnded then text else text ++ ['\n']))

def printText : Utility := fun self arguments => do
  let arguments := if arguments.head? = some ['-', '-'] then arguments.tail else arguments
  match arguments with
  | [] => missingOperand self
  | format :: arguments =>
    let p := printed format arguments
    setStatus 0
    emit self (toOctets p.text.reverse)
    for complaint in p.complaints ++ p.failure.toList do fails self complaint

def testCondition (isBracketed : Bool) : Utility := fun self arguments => do
  if isBracketed ∧ arguments.getLast? ≠ some [']'] then giveUp self 2 "missing ']'"
  let words := if isBracketed then arguments.dropLast else arguments
  match Condition.judge (← getFiles) (words.map fun word => if word = ['=', '='] then ['='] else word) with
  | .ok value => setStatus (if value then 0 else 1)
  | .error message => giveUp self 2 message

/-- How long a text says to wait, in microseconds; nothing stands for ever. -/
def duration? (text : Text) : Option (Option Nat) :=
  let unit? : Text → Option Nat := fun ending => match ending with
    | [] | ['s'] => some 1000000
    | ['m'] => some 60000000
    | ['h'] => some 3600000000
    | ['d'] => some 86400000000
    | _ => none
  if text = "infinity".toList ∨ text = "inf".toList then some none
  else
    let whole := text.takeWhile Char.isDigit
    let rest := text.drop whole.length
    let fraction := if rest.head? = some '.' then rest.tail.takeWhile Char.isDigit else []
    let ending := if rest.head? = some '.' then rest.tail.drop fraction.length else rest
    if whole = [] ∧ fraction = [] then none
    else (unit? ending).map fun unit =>
      some (valueIn 10 whole * unit + valueIn 10 fraction * unit / Nat.pow 10 fraction.length)

/-- A signal that came while a program waited stops it, unless it is ignored. -/
def heedWaiting : Eval Unit := do
  let m ← get
  for (number, signal) in m.system.sent do
    if number = m.process.number ∧ (m.process.traps.lookup signal).isNone ∧ ¬ Signal.isHarmless signal then
      throw (.killed signal)

def sleep : Utility := fun self arguments => do
  let g ← ({ letters := "" } : Grammar).read self arguments
  if g.operands = [] then missingOperand self
  let mut total := 0
  for text in g.operands do
    match duration? text with
    | some (some time) => total := total + time
    | some none => total := total + 1000000000000000
    | none => misused self 1 s!"invalid time interval {quoted text}"
  elapse total
  heedWaiting

/-- So many blocks are written by a program that would write for ever. -/
def blocksMax : Nat := 5000

def repeatLine : Utility := fun self arguments => do
  let line := toOctets (List.intercalate [' '] (if arguments = [] then [['y']] else arguments) ++ ['\n'])
  let block := (List.replicate (1 + 4096 / line.length) line).flatten
  for _ in List.range blocksMax do emit self block
  throw .exhausted

/-- A decimal number: its value in units of the last place, and how many places there are. -/
def decimal? (text : Text) : Option (Int × Nat) :=
  let negative := text.head? = some '-'
  let digits := if negative ∨ text.head? = some '+' then text.tail else text
  let whole := digits.takeWhile Char.isDigit
  let rest := digits.drop whole.length
  let fraction := if rest.head? = some '.' then rest.tail else []
  if (rest ≠ [] ∧ rest.head? ≠ some '.') ∨ ¬ fraction.all Char.isDigit ∨ whole ++ fraction = [] then none
  else
    let value := (valueIn 10 (whole ++ fraction) : Int)
    some (if negative then -value else value, fraction.length)

/-- A number with so many places, and so many characters at least. -/
def decimalText (places width : Nat) (value : Int) : Text :=
  let digits := decimalOf value.natAbs
  let digits := List.replicate (places + 1 - digits.length) '0' ++ digits
  let whole := digits.take (digits.length - places)
  let body := if places = 0 then whole else whole ++ '.' :: digits.drop (digits.length - places)
  let sign := if value < 0 then ['-'] else []
  sign ++ List.replicate (width - sign.length - body.length) '0' ++ body

def sequenceGrammar : Grammar where
  letters := "s:wf:"
  names := [("separator", 's'), ("equal-width", 'w'), ("format", 'f')]
  inOrder := true

/-- Negative numbers are no options. -/
def protectNumbers (arguments : List Text) : List Text :=
  let isNumber (word : Text) : Bool := word.head? = some '-' && (decimal? word).isSome
  let before := arguments.takeWhile (¬ isNumber ·)
  if before.length = arguments.length then arguments else before ++ ['-', '-'] :: arguments.drop before.length

def countThrough : Utility := fun self arguments => do
  let g ← sequenceGrammar.read self (protectNumbers arguments)
  let numberOf (text : Text) : Eval (Int × Nat) :=
    match decimal? text with
    | some n => return n
    | none => misused self 1 s!"invalid floating point argument: {quoted text}"
  let (first, step, last) ← match g.operands with
    | [] => missingOperand self
    | [last] => pure ((1, 0), (1, 0), ← numberOf last)
    | [first, last] => pure (← numberOf first, (1, 0), ← numberOf last)
    | [first, step, last] => pure (← numberOf first, ← numberOf step, ← numberOf last)
    | _ :: _ :: _ :: extra :: _ => misused self 1 s!"extra operand {quoted extra}"
  let places := max first.2 step.2
  let all := max places last.2
  let scaled (n : Int × Nat) : Int := n.1 * Nat.pow 10 (all - n.2)
  let (a, d, b) := (scaled first, scaled step, scaled last)
  if d = 0 then misused self 1 s!"invalid Zero increment value: {quoted ((g.operands[1]?).getD [])}"
  let count := if (d > 0 ∧ a ≤ b) ∨ (d < 0 ∧ b ≤ a) then ((b - a).tdiv d).toNat + 1 else 0
  let unit : Int := Nat.pow 10 (all - places)
  let text (width : Nat) (i : Nat) : Text := decimalText places width ((a + d * i) / unit)
  let width := if g.has "w" then max (text 0 0).length (text 0 (count - 1)).length else 0
  let shape (i : Nat) : Text :=
    match g.argument? 'f' with
    | some format => (printed format [text 0 i]).text.reverse
    | none => text width i
  let separator := (g.argument? 's').getD ['\n']
  if count > 0 then
    emit self (toOctets (List.intercalate separator ((List.range count).map shape) ++ ['\n']))

def showEnvironment : Utility := fun self arguments => do
  let g ← ({ letters := "0", names := [("null", '0')], status := 2, inOrder := true } : Grammar).read self arguments
  let environment := (← getProcess).environment
  if g.operands = [] then for (name, value) in environment do emitLine self (name ++ '=' :: value)
  else for name in g.operands do
    match environment.lookup name with
    | some value => emitLine self value
    | none => setStatus 1

/-- Letters that tell names apart. -/
def freshLetters (count n : Nat) : Text :=
  (List.range count).map fun i => Char.ofNat (97 + (n * 7919 + 104729 * (i + 1) * (n + 31)) / (i + 1) % 26)

def temporaryGrammar : Grammar where
  letters := "dp:tqu"
  names := [("directory", 'd'), ("tmpdir", 'p'), ("dry-run", 'u'), ("quiet", 'q')]

/-- Makes a file or a directory with a new name. -/
def makeTemporary : Utility := fun self arguments => do
  let g ← temporaryGrammar.read self arguments
  let template := g.operands.headD "tmp.XXXXXXXXXX".toList
  let blanks := (template.reverse.dropWhile (· ≠ 'X')).takeWhile (· = 'X')
  if blanks.length < 3 then giveUp self 1 s!"too few X's in template {quoted template}"
  let ending := template.reverse.takeWhile (· ≠ 'X')
  let front := template.take (template.length - ending.length - blanks.length)
  let p ← getProcess
  let name := front ++ freshLetters blanks.length p.number ++ ending.reverse
  let directory := match g.argument? 'p', p.value? "TMPDIR".toList with
    | some directory, _ => some directory
    | none, some directory => if g.operands = [] ∨ g.has "t" then some directory else none
    | none, none => if g.operands = [] ∨ g.has "t" then some "/tmp".toList else none
  let path := match directory with
    | some directory => childOf directory name
    | none => name
  let kind := if g.has "d" then "directory" else "file"
  let node : Node := if g.has "d" then .directory 0o700 else .file 0o600 []
  match Permission.make (← getFiles) (pathOf path) fun _ => node with
  | .error fault =>
    let whole := (directory.map (childOf · template)).getD template
    giveUp self 1 s!"failed to create {kind} via template {quoted whole}: {fault.reason}"
  | .ok files =>
    unless g.has "u" do setFiles files
    emitLine self path

/-- Sends signals, as the command of the shell does. -/
def killProcesses : Utility := fun self arguments => do
  let (signal?, targets) : Option Nat × List Text := match arguments with
    | ['-', 's'] :: name :: rest => (Signal.ofText? 0 (plainName name), rest)
    | ('-' :: name) :: rest => (Signal.ofText? 0 (plainName name), rest)
    | rest => (some Signal.terminate, rest)
  match signal? with
  | none => giveUp self 1 "invalid signal"
  | some signal =>
    setStatus 0
    for target in targets do
      match wholeNumber? target with
      | some number =>
        unless ← sendSignal signal number.toNat do fails self s!"({shown target}): No such process"
      | none => fails self s!"failed to parse argument: {quoted target}"
where
  /-- A name without the letters that all names may start with. -/
  plainName (name : Text) : Text := if "SIG".toList.isPrefixOf name then name.drop 3 else name

end Unjar.Shell
