import Unjar.Shell.Starting.Basic

/-!
Programs that start another one with other variables, or in another manner.
-/

namespace Unjar.Shell

/-- The words that a text is split into, as it would be between quotes and blanks. -/
structure WordSplitter where
  word : Option Text := none
  words : List Text := []
  quote : Option Char := none

namespace WordSplitter

def put (s : WordSplitter) (c : Char) : WordSplitter := { s with word := some (c :: s.word.getD []) }

def finish (s : WordSplitter) : WordSplitter :=
  match s.word with
  | some word => { s with word := none, words := word.reverse :: s.words }
  | none => s

/-- Splits a text; a variable between braces is replaced by its value. -/
def split (value : Text → Text) : Nat → WordSplitter → Text → WordSplitter
  | 0, s, _ => s
  | _, s, [] => s.finish
  | fuel + 1, s, c :: rest =>
    let go := split value fuel
    match s.quote, c, rest with
    | some q, c, rest =>
      if c = q then go { s with quote := none } rest
      else if c = '\\' ∧ rest ≠ [] then
        let next := rest.headD c
        if q = doubleQuotation ∨ next = '\\' ∨ next = quotation then go (s.put next) rest.tail
        else go ((s.put c).put next) rest.tail
      else if c = '$' ∧ q = doubleQuotation ∧ rest.head? = some '\x7b' then
        let name := rest.tail.takeWhile (· ≠ '\x7d')
        go ((value name).foldl put s) (rest.drop (name.length + 2))
      else go (s.put c) rest
    | none, '\\', next :: rest =>
      match next with
      | 'n' => go (s.put '\n') rest
      | 't' => go (s.put '\t') rest
      | '_' => go s.finish rest
      | 'c' => s.finish
      | next => go (s.put next) rest
    | none, '$', '\x7b' :: rest =>
      let name := rest.takeWhile (· ≠ '\x7d')
      go ((value name).foldl put { s with word := some (s.word.getD []) }) (rest.drop (name.length + 1))
    | none, c, rest =>
      if c = quotation ∨ c = doubleQuotation then go { s with quote := some c, word := some (s.word.getD []) } rest
      else if isSpace c then go s.finish rest
      else if c = '#' ∧ s.word = none then s.finish
      else go (s.put c) rest

end WordSplitter

def splitWords (value : Text → Text) (text : Text) : List Text :=
  (WordSplitter.split value (text.length + 1) {} text).words.reverse

def environmentGrammar : Grammar where
  letters := "iu:0S:C:v"
  names := [("ignore-environment", 'i'), ("unset", 'u'), ("null", '0'), ("split-string", 'S'), ("chdir", 'C'),
    ("debug", 'v')]
  status := 125
  inOrder := true

/-- Puts the words of a text that is to be split in its place. -/
def splitStrings (value : Text → Text) : Nat → List Text → List Text
  | 0, arguments => arguments
  | fuel + 1, arguments =>
    match arguments with
    | ('-' :: letter :: letters) :: rest =>
      let front := (letter :: letters).takeWhile (· ≠ 'S')
      if letter ≠ '-' ∧ front.length < (letter :: letters).length ∧ front.all "iv0".toList.contains then
        let text := (letter :: letters).drop (front.length + 1)
        let flags := if front = [] then [] else ['-' :: front]
        match text, rest with
        | [], text :: rest => splitStrings value fuel (flags ++ splitWords value text ++ rest)
        | text, rest => splitStrings value fuel (flags ++ splitWords value text ++ rest)
      else if letter = '-' ∧ "split-string=".toList.isPrefixOf letters then
        splitStrings value fuel (splitWords value (letters.drop 13) ++ rest)
      else arguments
    | _ => arguments

/-- Runs a program with other variables. -/
def withEnvironment (s : Starting) : Utility := fun self arguments => do
  let p ← getProcess
  let value (name : Text) : Text := (p.environment.lookup name).getD []
  let g ← environmentGrammar.read self (splitStrings value (arguments.length + 1) arguments)
  let (isEmptied, operands) := match g.operands with
    | ['-'] :: rest => (true, rest)
    | operands => (g.has "i", operands)
  if isEmptied then modifyProcess fun p => { p with bindings := [] }
  for (letter, name) in g.options do
    if letter = 'u' then modifyProcess (·.take name)
  let settings := operands.takeWhile (·.contains '=')
  for setting in settings do
    let name := setting.takeWhile (· ≠ '=')
    modifyProcess (·.put name { value := some (setting.drop (name.length + 1)), exported := true })
  if let some directory := g.argument? 'C' then
    match (← getFiles).locateAdmitted .use (pathOf directory) with
    | .ok l => modifyProcess fun p => { p with here := l }
    | .error fault => giveUp self 125 s!"cannot change directory to {quoted directory}: {fault.reason}"
  match operands.drop settings.length with
  | [] => for (name, value) in (← getProcess).environment do emitLine self (name ++ '=' :: value)
  | name :: arguments =>
    let fault ← s.replace (name :: arguments)
    complain self s!"{quoted name}: {fault.reason}"
    if fault = .notFound ∧ name.contains ' ' then
      complain self "use -[v]S to pass options in shebang lines"
    throw (.exit (startingStatus fault))

/-- Runs a program as it is, some options aside. -/
def withManner (letters : String) (s : Starting) : Utility := fun self arguments => do
  let g ← ({ letters, inOrder := true, status := 125 } : Grammar).read self arguments
  if g.operands = [] then missingOperand self 125
  s.replaceOr self g.operands

def timeoutGrammar : Grammar where
  letters := "k:s:vfp"
  names := [("kill-after", 'k'), ("signal", 's'), ("verbose", 'v'), ("foreground", 'f'), ("preserve-status", 'p')]
  status := 125
  inOrder := true

/-- Runs a program, and stops it when it takes too long. -/
def withTimeout (s : Starting) : Utility := fun self arguments => do
  let g ← timeoutGrammar.read self arguments
  match g.operands with
  | limit :: name :: rest =>
    let time ← match duration? limit with
      | some time => pure time
      | none => misused self 125 s!"invalid time interval {quoted limit}"
    let signal ← match g.argument? 's' with
      | none => pure Signal.terminate
      | some name =>
        match Signal.ofText? 0 name with
        | some signal => pure signal
        | none => misused self 125 s!"{quoted name}: invalid signal"
    let system ← getSystem
    let deadline := time.map fun time => (system.clock + time, system.nextProcess, signal)
    modifySystem fun s => { s with deadline := if time = some 0 then s.deadline else deadline }
    s.child (s.replaceOr self (name :: rest))
    let wasStopped := deadline.isSome ∧ time ≠ some 0 ∧ (← getSystem).deadline ≠ deadline
    modifySystem fun s => { s with
      deadline := system.deadline
      clock := if wasStopped then min s.clock (system.clock + time.getD 0) else s.clock }
    let status := (← getProcess).status
    throw (.exit (if wasStopped ∧ ¬ g.has "p" then 124 else status))
  | _ => missingOperand self 125

end Unjar.Shell
