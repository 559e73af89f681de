import Unjar.Shell.Opening

/-!
What the programs of the system have in common: how they read their command lines, how they read and write,
and how they complain.
-/

namespace Unjar.Shell

/-- A program of the system: the name it was started under is the one it complains under. -/
abbrev Utility := (self : Text) → (arguments : List Text) → Eval Unit

def complain (self : Text) (message : String) : Eval Unit :=
  say 2 s!"{shown self}: {message}\n".toList

/-- A program complains of something, and goes on; it will have failed. -/
def fails (self : Text) (message : String) : Eval Unit := do
  complain self message
  setStatus 1

/-- A program gives up. -/
def giveUp {α : Type} (self : Text) (status : Nat) (message : String) : Eval α := do
  complain self message
  throw (.exit status)

def helpHint (self : Text) : String := s!"\nTry '{shown self} --help' for more information."

def misused {α : Type} (self : Text) (status : Nat) (message : String) : Eval α :=
  giveUp self status (message ++ helpHint self)

/-- Whether a character has a meaning in a shell. -/
def isShellSign (c : Char) : Bool := " !$&()*;<=>[^|\\".toList.contains c || c = quotation || c = doubleQuotation ||
  c = backQuotation

/-- A name as a part of a message. It stands between quotes where a shell would not take it as it is. -/
def nameText (name : Text) : String :=
  let isSpecial := name = [] || name.any isShellSign || ['#', '~'].contains (name.headD ' ') ||
    name = ['\x7b'] || name = ['\x7d']
  if ¬ isSpecial then shown name
  else if ¬ name.contains quotation then quoted name
  else if name.all fun c => c = ' ' ∨ c = quotation ∨ ¬ isShellSign c then
    String.ofList (doubleQuotation :: name ++ [doubleQuotation])
  else quoted (name.flatMap fun c => if c = quotation then [quotation, '\\', quotation, quotation] else [c])

/-- A program complains of what it cannot do to something. -/
def cannot (self : Text) (what : String) (name : Text) (fault : Fault) : Eval Unit :=
  fails self s!"{what} {quoted name}: {fault.reason}"

/-- What a command line may hold: letters, the ones before a colon with an argument, and long names for them
such as `lines:=n`. -/
structure Grammar where
  letters : String
  names : List (String × Char) := []
  /-- The letters whose argument follows in the same word, if there is one. -/
  attached : String := ""
  /-- The status of a program that does not understand its command line. -/
  status : Nat := 1
  /-- Whether options end with the first operand. -/
  inOrder : Bool := false

structure Given where
  options : List (Char × Text) := []
  operands : List Text := []

namespace Given

def has (g : Given) (letters : String) : Bool := g.options.any fun option => letters.toList.contains option.1

/-- The argument of the last option with a letter. -/
def argument? (g : Given) (letter : Char) : Option Text := (g.options.reverse.lookup letter)

/-- The last option that is one of some letters. -/
def last? (g : Given) (letters : String) : Option Char :=
  ((g.options.map Prod.fst).filter letters.toList.contains).getLast?

def put (g : Given) (letter : Char) (argument : Text) : Given :=
  { g with options := g.options ++ [(letter, argument)] }

end Given

namespace Grammar

def takesArgument (g : Grammar) (letter : Char) : Bool :=
  ((g.letters.toList.dropWhile (· ≠ letter)).drop 1).head? = some ':'

def knows (g : Grammar) (letter : Char) : Bool := letter ≠ ':' && g.letters.toList.contains letter

/-- The letter that a long name stands for. A name may be cut off as long as it is clear which is meant. -/
def letterOf? (g : Grammar) (name : Text) : Option Char :=
  match g.names.find? fun entry => entry.1.toList = name with
  | some (_, letter) => some letter
  | none =>
    match g.names.filter fun entry => name.isPrefixOf entry.1.toList with
    | [] => none
    | (_, letter) :: others => if others.all (·.2 = letter) then some letter else none

/-- The letters of one word, and the words that are left. -/
def takeLetters (g : Grammar) (self : Text) : Text → List Text → Given → Eval (Given × List Text)
  | [], rest, given => return (given, rest)
  | letter :: letters, rest, given => do
    if ¬ g.knows letter then misused self g.status s!"invalid option -- '{letter}'"
    if g.attached.toList.contains letter then return (given.put letter letters, rest)
    else if g.takesArgument letter then
      match letters, rest with
      | [], [] => misused self g.status s!"option requires an argument -- '{letter}'"
      | [], argument :: rest => return (given.put letter argument, rest)
      | argument, rest => return (given.put letter argument, rest)
    else takeLetters g self letters rest (given.put letter [])

/-- A long name as it is written, in quotes. -/
def longName (name : Text) : String := quoted ('-' :: '-' :: name)

def takeName (g : Grammar) (self word : Text) (rest : List Text) (given : Given) : Eval (Given × List Text) := do
  let name := word.takeWhile (· ≠ '=')
  match g.letterOf? name with
  | none =>
    if name = "help".toList ∨ name = "version".toList then throw (.exit 0)
    misused self g.status ("unrecognized option " ++ longName word)
  | some letter =>
    if g.attached.toList.contains letter then return (given.put letter (word.drop (name.length + 1)), rest)
    else if ¬ g.takesArgument letter then
      if name.length < word.length then misused self g.status (s!"option {longName name}" ++ " doesn't allow an argument")
      return (given.put letter [], rest)
    else if name.length < word.length then return (given.put letter (word.drop (name.length + 1)), rest)
    else match rest with
      | argument :: rest => return (given.put letter argument, rest)
      | [] => misused self g.status s!"option {longName name} requires an argument"

def takeAll (g : Grammar) (self : Text) : Nat → List Text → Given → Eval Given
  | 0, _, given | _, [], given => return given
  | fuel + 1, word :: rest, given => do
    match word with
    | ['-', '-'] => return { given with operands := given.operands ++ rest }
    | '-' :: '-' :: name => do
      let (given, rest) ← g.takeName self name rest given
      takeAll g self fuel rest given
    | '-' :: letter :: letters => do
      let (given, rest) ← g.takeLetters self (letter :: letters) rest given
      takeAll g self fuel rest given
    | operand =>
      if g.inOrder then return { given with operands := given.operands ++ operand :: rest }
      else takeAll g self fuel rest { given with operands := given.operands ++ [operand] }

/-- Reads a command line. Options may stand anywhere before `--`. -/
def read (g : Grammar) (self : Text) (arguments : List Text) : Eval Given := do
  setStatus 0
  g.takeAll self (arguments.length + 1) arguments {}

end Grammar

def missingOperand {α : Type} (self : Text) (status : Nat := 1) : Eval α := misused self status "missing operand"

/-- Writes to the standard output, or gives up. -/
def emit (self : Text) (data : Bytes) : Eval Unit := do
  match ← writeOctets 1 data with
  | .ok _ => return
  | .error fault => giveUp self 1 s!"write error: {fault.reason}"

def emitLine (self line : Text) : Eval Unit := emit self (toOctets (line ++ ['\n']))

def isStandardInput (name : Text) : Bool := name = ['-']

/-- What an operand holds; a dash stands for the standard input. -/
def inputOf (name : Text) : Eval (Except Fault Bytes) :=
  if isStandardInput name then readAll 0 else contentAt name

/-- The operands, or the standard input if there are none. -/
def inputsOf (operands : List Text) : List Text := if operands = [] then [['-']] else operands

/-- Lines with what ends them. -/
def fullLines (data : Bytes) : List Bytes :=
  match data.splitOn 0x0A with
  | [] => []
  | pieces =>
    let whole := pieces.dropLast.map (· ++ [0x0A])
    match pieces.getLast? with
    | some [] | none => whole
    | some last => whole ++ [last]

/-- Lines as texts, without what ends them. -/
def textLines (data : Bytes) : List Text := linesOf (ofOctets data)

/-- The last name of a path, slashes at its end aside. -/
def baseName (name : Text) : Text :=
  let trimmed := (name.reverse.dropWhile (· = '/')).reverse
  if trimmed = [] then name.take 1 else (trimmed.reverse.takeWhile (· ≠ '/')).reverse

def directoryName (name : Text) : Text :=
  let above := ((name.reverse.dropWhile (· = '/')).dropWhile (· ≠ '/')).dropWhile (· = '/')
  if above ≠ [] then above.reverse
  else if name.head? = some '/' then ['/'] else ['.']

def childOf (directory name : Text) : Text :=
  if directory.getLast? = some '/' then directory ++ name else directory ++ '/' :: name

/-- Changes files, or complains. -/
def changeFiles (self : Text) (what : String) (name : Text) (op : FileSystem → Except Fault FileSystem) :
    Eval Bool := do
  match op (← getFiles) with
  | .ok files =>
    setFiles files
    return true
  | .error fault =>
    cannot self what name fault
    return false

end Unjar.Shell
