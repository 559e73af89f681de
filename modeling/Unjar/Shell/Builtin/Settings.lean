import Unjar.Shell.Builtin.Basic

/-!
The commands that set variables, arguments and options of the shell.
-/

namespace Unjar.Shell

def optionNames : List (String × Option Char) :=
  [("errexit", some 'e'), ("noglob", some 'f'), ("ignoreeof", some 'I'), ("interactive", some 'i'),
    ("monitor", some 'm'), ("noexec", some 'n'), ("stdin", some 's'), ("xtrace", some 'x'), ("verbose", some 'v'),
    ("vi", some 'V'), ("emacs", some 'E'), ("noclobber", some 'C'), ("allexport", some 'a'), ("notify", some 'b'),
    ("nounset", some 'u'), ("privileged", some 'p'), ("nolog", none), ("debug", none)]

def setOption (isOn : Bool) (letter : Char) : Eval Unit := do
  unless Process.optionLetters.contains letter do failWith s!"Illegal option -{letter}"
  if isOn ∧ letter = 'm' then warn "can't access tty; job control turned off"
  else modifyProcess fun p =>
    let others := p.options.filter (· ≠ letter)
    { p with options := if isOn then letter :: others else others }

/-- Sets an option by its name, or shows them all. -/
def setNamedOption (isOn : Bool) : Option Text → Eval Unit
  | some name => do
    match optionNames.find? fun entry => entry.1.toList = name with
    | some (_, some letter) => setOption isOn letter
    | some (_, none) => return
    | none => failWith s!"Illegal option -o {shown name}"
  | none => do
    let p ← getProcess
    let isSet (letter? : Option Char) : Bool := letter?.any p.has
    if isOn then answerLine "Current option settings".toList
    for (name, letter?) in optionNames do
      if isOn then
        let gap := String.ofList (List.replicate (16 - name.length) ' ')
        let state := if isSet letter? then "on" else "off"
        answerLine s!"{name}{gap}{state}".toList
      else
        let sign := if isSet letter? then "-o" else "+o"
        answerLine s!"set {sign} {name}".toList

def setArguments (arguments : List Text) : Eval Unit :=
  modifyProcess fun p => { p with arguments, optionPlace := {} }

/-- The letters of one word of options; those that ask for a name take it from the words behind. -/
def setLetters (isOn : Bool) : List Char → List Text → Eval (List Text)
  | [], rest => return rest
  | 'o' :: letters, rest => do
    setNamedOption isOn rest.head?
    setLetters isOn letters rest.tail
  | letter :: letters, rest => do
    setOption isOn letter
    setLetters isOn letters rest

def setFrom : Nat → List Text → Eval Unit
  | 0, _ => return
  | _, [] => return
  | fuel + 1, first :: rest => do
    match first with
    | ['-'] =>
      modifyProcess fun p => { p with options := p.options.filter fun c => c ≠ 'x' ∧ c ≠ 'v' }
      if rest ≠ [] then setArguments rest
    | ['-', '-'] => setArguments rest
    | '-' :: letters => setFrom fuel (← setLetters true letters rest)
    | '+' :: letters => setFrom fuel (← setLetters false letters rest)
    | _ => setArguments (first :: rest)

/-- Shows variables in the order of their names, each behind a word. -/
def showVariables (word : String) (isShown : Variable → Bool) : Eval Unit := do
  let p ← getProcess
  for (name, v) in Bytes.sortBy (fun entry => toOctets entry.1) (p.bindings.filter fun entry => isShown entry.2) do
    let value := match v.value with
      | some value => '=' :: singleQuoted value
      | none => []
    answerLine (word.toList ++ name ++ value)

def configure : Builtin := fun arguments => do
  setStatus 0
  if arguments = [] then showVariables "" (·.value.isSome)
  else setFrom (arguments.length + 1) arguments

def shift : Builtin := fun arguments => do
  let count ← match arguments with
    | first :: _ => numberOf first
    | [] => pure 1
  if (← getProcess).arguments.length < count then failWith "can't shift that many"
  setArguments ((← getProcess).arguments.drop count)
  setStatus 0

/-- Gives variables a quality, and a value where one is written. -/
def markVariables (word : String) (isMarked : Variable → Bool) (mark : Variable → Variable) : Builtin :=
  fun arguments => do
    let (found, names) ← options "p" arguments
    setStatus 0
    if found ≠ [] ∨ names = [] then showVariables s!"{word} " isMarked
    else
      for argument in names do
        let (name, value?) := nameAndValue argument
        requireName name
        if let some value := value? then assign name value
        changeVariable name mark

def exportVariables : Builtin :=
  markVariables "export" (·.exported) fun v => { v with exported := true }

def protectVariables : Builtin :=
  markVariables "readonly" (·.readOnly) fun v => { v with readOnly := true }

def unset : Builtin := fun arguments => do
  let (found, names) ← options "vf" arguments
  let ofFunctions := found.getLast?.any fun option => option.1 = 'f'
  for name in names do
    if ofFunctions then modifyProcess fun p => { p with functions := p.functions.filter (·.1 ≠ name) }
    else
      requireName name
      unsetVariable name
  setStatus 0

def localVariables : Builtin := fun arguments => do
  if (← getProcess).scopes = [] then failWith "not in a function"
  for argument in arguments do
    let (name, value?) := nameAndValue argument
    unless name = ['-'] do requireName name
    makeLocal name value?
  setStatus 0

/-- What was found at the place of an option: its letter, what is behind it in its word, and the words
behind that. -/
def optionAt? (place : OptionPlace) (arguments : List Text) : Option (Char × Text × Nat) :=
  let started := match place.offset with
    | some offset => if place.index ≤ 1 then [] else ((arguments[place.index - 2]?).getD []).drop offset
    | none => []
  match started with
  | c :: rest => some (c, rest, place.index)
  | [] =>
    match (arguments[place.index - 1]?).getD [] with
    | ['-', '-'] => none
    | '-' :: c :: rest => some (c, rest, place.index + 1)
    | _ => none

/-- Sets the variables that tell of an option. `rest` is what is still to be read of its word. -/
def tellOption (variable' : Text) (c : Char) (index : Nat) (rest : Option Nat) : Eval Unit := do
  setVariable "OPTIND" (decimalOf index)
  requireName variable'
  assign variable' [c]
  modifyProcess fun p => { p with optionPlace := { index, offset := rest } }

/-- Reads the next option from the arguments of the script, or from those that are given. -/
def readOption : Builtin := fun arguments => do
  match arguments with
  | known :: variable' :: given => do
    let p ← getProcess
    let words := if given = [] then p.arguments else given
    let place : OptionPlace := if words.length + 1 < p.optionPlace.index then {} else p.optionPlace
    let isQuiet := known.head? = some ':'
    let mistake (message : String) (c sign : Char) (index : Nat) (rest : Option Nat) : Eval Unit := do
      if isQuiet then
        setVariable "OPTARG" [c]
        tellOption variable' sign index rest
      else
        say 2 s!"{message}\n".toList
        unsetVariable "OPTARG".toList
        tellOption variable' '?' index rest
    setStatus 0
    match optionAt? place words with
    | none =>
      let ended := (words[place.index - 1]?) = some ['-', '-']
      tellOption variable' '?' (if ended then place.index + 1 else place.index) none
      setStatus 1
    | some (c, rest, index) =>
      let offset := ((words[index - 2]?).getD []).length - rest.length
      match if c = ':' then [] else known.dropWhile (· ≠ c) with
      | [] => mistake s!"Illegal option -{c}" c '?' index (some offset)
      | _ :: ':' :: _ =>
        if rest ≠ [] then
          setVariable "OPTARG" rest
          tellOption variable' c index none
        else
          match words[index - 1]? with
          | some argument =>
            setVariable "OPTARG" argument
            tellOption variable' c (index + 1) none
          | none => mistake s!"No arg for -{c} option" c ':' index none
      | _ =>
        setVariable "OPTARG" []
        tellOption variable' c index (some offset)
  | _ => failWith "Usage: getopts optstring var [arg...]"

end Unjar.Shell
