import Unjar.Shell.Arithmetic
import Unjar.Shell.Expansion.Filenames
import Unjar.Shell.Machine.Variables

/-!
The expansion of words. What a word becomes depends on where it stands: the words of a command are split
into fields and stand for the names of files, and others are not.
-/

namespace Unjar.Shell

/-- Where a tilde may stand for a home directory. -/
inductive Tildes where
  | nowhere
  | first
  /-- Also behind a colon. -/
  | everywhere
  deriving DecidableEq

/-- How a word is expanded. -/
structure Manner where
  splits : Bool := false
  quoted : Bool := false
  /-- Whether the word is the operand of an edit, and so is split itself. -/
  isOperand : Bool := false
  tildes : Tildes := .nowhere

/-- A word of a command. -/
def Manner.field : Manner := { splits := true, tildes := .first }

/-- A word that is one text. -/
def Manner.text : Manner := { tildes := .first }

def Manner.assigned : Manner := { tildes := .everywhere }

def Manner.document : Manner := { quoted := true }

/-- The segments of a word, the latest first. -/
abbrev Expanded := List Segment

def Expanded.put (e : Expanded) (splitting : Splitting) (piece : Piece) : Expanded :=
  match e with
  | last :: before =>
    if last.splitting = splitting ∧ splitting ≠ .arguments then
      { last with pieces := piece :: last.pieces } :: before
    else { splitting, pieces := [piece] } :: e
  | [] => [{ splitting, pieces := [piece] }]

/-- Adds a segment that stays one of its own. -/
def Expanded.add (e : Expanded) (s : Segment) : Expanded :=
  { splitting := .whole, pieces := [] } :: { s with pieces := s.pieces.reverse } :: e

def Expanded.segments (e : Expanded) : List Segment :=
  (e.filter fun s => s.splitting ≠ .whole ∨ s.pieces ≠ []).reverse.map fun s =>
    { s with pieces := s.pieces.reverse }

/-- What stands between the arguments where they become one text. -/
def joint (p : Process) : List Piece → List Piece := fun otherwise =>
  match p.value? "IFS".toList with
  | none => [.char ' ' false]
  | some separators => if otherwise ≠ [] then otherwise else (separators.take 1).map fun c => .char c false

def argumentPieces (p : Process) (manner : Manner) (name : Char) : List Piece :=
  let between :=
    if manner.splits ∧ manner.quoted ∧ name = '@' then [Piece.gap]
    else (joint p (if manner.splits ∧ ¬ manner.quoted then [.gap] else [])).map fun piece => match piece with
      | .char c _ => .char c manner.quoted
      | other => other
  List.intercalate between (p.arguments.map (piecesOf manner.quoted))

/-- The value of a parameter, if it is set. -/
def parameter? (p : Process) (manner : Manner) (name : Text) : Option (List Piece) :=
  let text (value : Text) := piecesOf manner.quoted value
  match name with
  | ['#'] => some (text (decimalOf p.arguments.length))
  | ['?'] => some (text (decimalOf p.status))
  | ['$'] => some (text (decimalOf p.shellNumber))
  | ['!'] => p.lastJob.map fun n => text (decimalOf n)
  | ['-'] => some (text p.shownOptions)
  | ['@'] => some (argumentPieces p manner '@')
  | ['*'] => some (argumentPieces p manner '*')
  | _ =>
    if name.all Char.isDigit then
      match valueIn 10 name with
      | 0 => some (text p.self)
      | n + 1 => (p.arguments[n]?).map text
    else (p.value? name).map text

/-- How what a parameter became is split. -/
def splittingOf (p : Process) (manner : Manner) (name : Text) : Splitting :=
  if ¬ manner.quoted then .fields
  else if name = ['@'] ∧ p.arguments ≠ [] then .arguments
  else .whole

def Edit.countsEmpty : Edit → Bool
  | default orEmpty | assign orEmpty | demand orEmpty | alternative orEmpty => orEmpty
  | _ => false

/-- The home directory of a user, if it is known. -/
def homeOf? (p : Process) (user : Text) : Option Text :=
  if user = [] then p.value? "HOME".toList
  else if user = "root".toList then some "/root".toList
  else none

/-- The name behind a tilde, up to where the name of a user ends. -/
def tildeName? (tildes : Tildes) : Word → Option (Text × Word)
  | .char c quoted :: rest =>
    if quoted then none
    else if c = '/' ∨ (c = ':' ∧ tildes = .everywhere) then some ([], .char c quoted :: rest)
    else (tildeName? tildes rest).map fun (name, after) => (c :: name, after)
  | [] => some ([], [])
  | _ => none

/-- A word whose first tilde is taken away, with the directory in its place. -/
def tildeAtFront? (p : Process) (tildes : Tildes) (word : Word) : Option (Text × Word) :=
  match tildes, word with
  | .nowhere, _ => none
  | tildes, .char '~' false :: rest =>
    match tildeName? tildes rest with
    | some (user, after) => (homeOf? p user).map fun home => (home, after)
    | none => none
  | _, _ => none

/-- The value of an arithmetic expression whose expansions are done. -/
def calculate (expression : Text) : Eval Text := do
  let p ← getProcess
  match evaluate (fun name => (p.value? name).getD []) expression with
  | .ok (value, assigned) =>
    for (name, value) in assigned.reverse do assign name (signedDecimalOf value.toInt)
    return signedDecimalOf value.toInt
  | .error (.illegalNumber text) => failWith s!"Illegal number: {shown text}"
  | .error e => failWith s!"arithmetic expression: {e.description}: \"{shown expression}\""

section Words

-- What a substitution yields, without the line ends behind it.
variable (substitute : Command → Eval Text)

mutual

def expandFrom : Nat → Manner → Bool → Expanded → Word → Eval Expanded
  | 0, _, _, _, _ => throw .exhausted
  | _, _, _, e, [] => return e
  | fuel + 1, manner, inQuotes, e, part :: rest => do
    let inner := { manner with quoted := manner.quoted || inQuotes, tildes := .nowhere }
    match part, rest with
    | .mark, .parameter ['@'] .none _ :: .mark :: rest' =>
      if inQuotes then expandFrom fuel manner false (e.put .whole .mark) rest
      else
        let e ← expandParameter fuel { inner with quoted := true } e ['@'] .none []
        expandFrom fuel manner false e rest'
    | .mark, _ => expandFrom fuel manner (!inQuotes) (e.put .whole .mark) rest
    | .char c quoted, _ =>
      let splits := manner.isOperand && !manner.quoted && !inQuotes && !quoted
      let e := e.put (if splits then .fields else .whole) (.char c (quoted || inner.quoted))
      let p ← getProcess
      let mayBeHome := c = ':' ∧ ¬ quoted ∧ manner.tildes = .everywhere
      match if mayBeHome then tildeAtFront? p .everywhere rest else none with
      | some (home, rest) => expandFrom fuel manner inQuotes (e.add ⟨.whole, piecesOf true home⟩) rest
      | none => expandFrom fuel manner inQuotes e rest
    | .parameter name edit operand, _ =>
      expandFrom fuel manner inQuotes (← expandParameter fuel inner e name edit operand) rest
    | .substitution body, _ =>
      let pieces := piecesOf inner.quoted (← substitute body)
      expandFrom fuel manner inQuotes (e.add ⟨if inner.quoted then .whole else .fields, pieces⟩) rest
    | .arithmetic expression, _ =>
      let text ← expandToText fuel {} expression
      let pieces := piecesOf inner.quoted (← calculate text)
      expandFrom fuel manner inQuotes (e.add ⟨if inner.quoted then .whole else .fields, pieces⟩) rest

/-- Adds what an operand becomes. -/
def expandOperand : Nat → Manner → Expanded → Word → Eval Expanded
  | 0, _, _, _ => throw .exhausted
  | fuel + 1, manner, e, word => do
    let manner := { manner with isOperand := true }
    match tildeAtFront? (← getProcess) .first word with
    | some (home, rest) => expandFrom fuel manner false (e.add ⟨.whole, piecesOf true home⟩) rest
    | none => expandFrom fuel manner false e word

def expandToSegments : Nat → Manner → Word → Eval (List Segment)
  | 0, _, _ => throw .exhausted
  | fuel + 1, manner, word => do
    match tildeAtFront? (← getProcess) manner.tildes word with
    | some (home, rest) =>
      return (← expandFrom fuel manner false (Expanded.add [] ⟨.whole, piecesOf true home⟩) rest).segments
    | none => return (← expandFrom fuel manner false [] word).segments

def expandToText : Nat → Manner → Word → Eval Text
  | 0, _, _ => throw .exhausted
  | fuel + 1, manner, word => return textOfSegments (← expandToSegments fuel manner word)

def expandParameter : Nat → Manner → Expanded → Text → Edit → Word → Eval Expanded
  | 0, _, _, _, _, _ => throw .exhausted
  | fuel + 1, manner, e, name, edit, operand => do
    if edit = .unknown then failWith "Bad substitution"
    let p ← getProcess
    let splitting := splittingOf p manner name
    let value? := (parameter? p manner name).filter fun v => !(edit.countsEmpty && v.isEmpty)
    let add (pieces : List Piece) : Expanded := e.add ⟨splitting, pieces⟩
    match value?, edit with
    | some value, .length => return add (piecesOf manner.quoted (decimalOf value.length))
    | some value, .trimFront longest => return add ((← patternOf fuel operand).trimFront longest value)
    | some value, .trimBack longest => return add ((← patternOf fuel operand).trimBack longest value)
    | some _, .alternative _ | none, .default _ => expandOperand fuel manner e operand
    | some value, _ => return add value
    | none, .alternative _ => return add []
    | none, .assign _ =>
      let text ← expandToText fuel .text operand
      unless isName name do failWith s!"{shown name}: bad variable name"
      assign name text
      return add (piecesOf manner.quoted (((← getProcess).value? name).getD []))
    | none, .demand orEmpty =>
      let text ← expandToText fuel .text operand
      let message := if ¬ operand.isEmpty then shown text
        else if orEmpty then "parameter not set or null" else "parameter not set"
      failWith s!"{shown name}: {message}"
    | none, _ =>
      if p.has 'u' then failWith s!"{shown name}: parameter not set"
      if edit = .length then return add (piecesOf manner.quoted ['0']) else return e

/-- What a word is as a pattern. -/
def patternOf : Nat → Word → Eval Pattern
  | 0, _ => throw .exhausted
  | fuel + 1, word => do
    let segments ← expandToSegments fuel .text word
    return Pattern.ofChars (patternChars (segments.flatMap (·.pieces)))

end

end Words

/-- So many parts a word has at most. -/
def partsMax : Nat := 100000000

section Uses

variable (substitute : Command → Eval Text)

/-- The fields that a word of a command stands for. -/
def fieldsOf (word : Word) : Eval (List Text) := do
  let segments ← expandToSegments substitute partsMax .field word
  let p ← getProcess
  let fields := fieldsOfSegments p.separators none segments
  if p.has 'f' then return fields.map textOfPieces
  let fs ← getFiles
  return fields.flatMap (filenames fs)

def fieldsOfAll (words : List Word) : Eval (List Text) :=
  return (← words.mapM (fieldsOf substitute)).flatten

/-- The text that a word is in some manner. -/
def textOf (manner : Manner) (word : Word) : Eval Text := expandToText substitute partsMax manner word

def patternOfWord (word : Word) : Eval Pattern := patternOf substitute partsMax word

end Uses

end Unjar.Shell
