import Unjar.Shell.Reader.Source

/-!
Reading words. Quotes and expansions nest, so a word is drafted with a stack of contexts for the former
and a stack of unfinished expansions for the latter.
-/

namespace Unjar.Shell

inductive Quoting where
  | bare
  | single
  | double
  | arithmetic
  deriving DecidableEq

/-- Where in quotes, braces and parentheses a character stands. -/
structure Context where
  quoting : Quoting
  /-- Whether a backslash is read as between double quotes. -/
  inDouble : Bool
  /-- Whether a double quote was opened between braces. -/
  innerDouble : Bool := false
  braces : Nat := 0
  /-- How many of the braces were opened between double quotes. -/
  doubleBraces : Nat := 0
  parentheses : Nat := 0
  /-- Whether the context ends with its outermost brace. -/
  endsWithBrace : Bool := false

inductive Opening where
  | parameter (name : Text) (edit : Edit)
  | arithmetic

structure Draft where
  context : Context
  outer : List Context := []
  /-- The parts so far, the latest first. -/
  parts : List Part := []
  /-- The expansions that are still open, the innermost first, each with the parts before it. -/
  unfinished : List (Opening × List Part) := []
  quoted : Bool := false

/-- What the characters are read as. -/
inductive Reading where
  | word
  /-- The text that is to end a document. -/
  | delimiter
  | document (ending : Text) (unindented : Bool)

def Reading.isDocument : Reading → Bool
  | document .. => true
  | _ => false

def Reading.isDelimiter : Reading → Bool
  | delimiter => true
  | _ => false

namespace Draft

def start (quoting : Quoting) : Draft :=
  { context := { quoting, inDouble := quoting = .double } }

def put (d : Draft) (part : Part) : Draft :=
  { d with parts := part :: d.parts }

def putChar (d : Draft) (c : Char) (quoted : Bool) : Draft := d.put (.char c quoted)

/-- A character that stands for itself where it is. -/
def putWritten (d : Draft) (c : Char) : Draft :=
  d.putChar c (d.context.quoting = .double ∨ d.context.quoting = .single)

def putMark (d : Draft) (reading : Reading) : Draft :=
  if reading.isDocument then d else d.put .mark

def mapContext (d : Draft) (change : Context → Context) : Draft :=
  { d with context := change d.context }

def enter (d : Draft) (context : Context) : Draft :=
  { d with context, outer := d.context :: d.outer }

def leave (d : Draft) : Draft :=
  match d.outer with
  | [] => d
  | context :: outer => { d with context, outer }

/-- Starts an expansion whose inside is a word again. -/
def openExpansion (d : Draft) (opening : Opening) : Draft :=
  { d with unfinished := (opening, d.parts) :: d.unfinished, parts := [] }

def closeExpansion (d : Draft) : Draft :=
  match d.unfinished with
  | [] => d
  | (opening, before) :: unfinished =>
    let inside := d.parts.reverse
    let part : Part := match opening with
      | .parameter name edit => .parameter name edit inside
      | .arithmetic => .arithmetic inside
    { d with unfinished, parts := part :: before }

/-- A brace that closes an expansion, or else stands for itself. -/
def closeBrace (d : Draft) : Draft :=
  let c := d.context
  if c.innerDouble ∨ c.braces = 0 then d.putWritten '\x7d'
  else
    let closed := d.closeExpansion
    let inside := { c with braces := c.braces - 1 }
    if inside.braces = 0 ∧ c.endsWithBrace then closed.leave
    else { closed with context := { inside with doubleBraces := c.doubleBraces - 1 } }

/-- An expansion with an edit: its operand may be quoted unlike the word around it. -/
def openBrace (d : Draft) (name : Text) (edit : Edit) : Draft :=
  let quoting := match edit, d.context.quoting with
    | .trimFront _, _ | .trimBack _, _ => .bare
    | _, .arithmetic => .double
    | _, quoting => quoting
  let inside :=
    if quoting ≠ d.context.quoting ∨ d.context.innerDouble then
      d.enter { quoting, inDouble := quoting ≠ .bare, endsWithBrace := true }
    else d
  (inside.mapContext fun c => { c with
    braces := c.braces + 1
    doubleBraces := if c.inDouble then c.doubleBraces + 1 else c.doubleBraces }).openExpansion (.parameter name edit)

def openDouble (d : Draft) (reading : Reading) : Draft :=
  let inside := d.mapContext fun c =>
    { c with quoting := .double, inDouble := true, innerDouble := (c.braces ≠ 0) ^^ c.innerDouble }
  inside.putMark reading

/-- The end of a quotation. Between braces that were opened in one the quotation goes on. -/
def closeQuotes (d : Draft) (double : Bool) (reading : Reading) : Draft :=
  let ended := d.mapContext fun c => if c.doubleBraces = 0 then { c with quoting := .bare, inDouble := false } else c
  let ended := { ended with quoted := true }
  let toggled := if double then
      ended.mapContext fun c => { c with innerDouble := (c.braces ≠ 0) ^^ c.innerDouble }
    else ended
  toggled.putMark reading

end Draft

/-- What a word needs of the reader of commands. -/
structure Insides where
  /-- The commands of a substitution, up to the parenthesis that ends it. -/
  substitution : Reader Command
  /-- The commands of a text of their own. -/
  commands : Reader Command

namespace Reader

def isSpecialParameter (c : Char) : Bool :=
  "#?$@*!-".toList.contains c || c.isDigit

def takeWhileFrom (p : Char → Bool) : Nat → Text → Option Char → Reader (Text × Option Char)
  | 0, soFar, c => return (soFar.reverse, c)
  | fuel + 1, soFar, c => do
    match c with
    | some d => if p d then takeWhileFrom p fuel (d :: soFar) (← nextJoined) else return (soFar.reverse, c)
    | none => return (soFar.reverse, c)

/-- The characters from the given one on as long as they satisfy something, and the one behind them. -/
def takeWhile (p : Char → Bool) (c : Option Char) : Reader (Text × Option Char) :=
  takeWhileFrom p stepsMax [] c

/-- An edit that starts with the given character, which is at least read. A line end in its place does not
count as one. -/
def edit (c : Option Char) : Reader Edit := do
  let withSign (orEmpty : Bool) (c : Option Char) : Reader Edit := do
    match c with
    | some '-' => return .default orEmpty
    | some '=' => return .assign orEmpty
    | some '?' => return .demand orEmpty
    | some '+' => return .alternative orEmpty
    | some '\n' =>
      modify fun s => { s with line := s.line - 1 }
      return .unknown
    | _ => return .unknown
  match c with
  | some '\x7d' => return .none
  | some ':' => withSign true (← nextJoined)
  | some '%' => return .trimBack (← take? '%')
  | some '#' => return .trimFront (← take? '#')
  | c => withSign false c

/-- The name of a parameter between braces, with its length wanted or not, and the character behind
it. A `#` asks for a length unless it is the parameter itself. -/
def bracedName (c : Option Char) : Reader (Text × Bool × Option Char) := do
  let named (c : Option Char) : Reader (Option (Text × Option Char)) := do
    match c with
    | some d =>
      if isNameStart d then return some (← takeWhile isNamePart c)
      else if d.isDigit then return some (← takeWhile Char.isDigit c)
      else return none
    | none => return none
  match ← named c with
  | some (name, after) => return (name, false, after)
  | none =>
    match c with
    | some '\x7d' | none => return ([], false, c)
    | some '#' =>
      let second ← nextJoined
      match ← named second with
      | some (name, after) => return (name, true, after)
      | none =>
        let third ← nextJoined
        if second ≠ some '\x7d' ∧ third = some '\x7d' then return (second.toList, true, third)
        else
          back third
          return (['#'], false, second)
    | some d => return ([d], false, ← nextJoined)

/-- An expansion between braces, up to the operand of its edit. -/
def braced (d : Draft) : Reader Draft := do
  let (name, isLength, after) ← bracedName (← nextJoined)
  let isParameter := isName name ∨ name.head?.any isSpecialParameter
  if ¬ isParameter then
    back after
    return d.openBrace name .unknown
  else if isLength then
    back after
    return d.openBrace name (if after = some '\x7d' then .length else .unknown)
  else
    match ← edit after with
    | .none => return d.put (.parameter name .none [])
    | e => return d.openBrace name e

/-- The text between back quotes, with the backslashes taken off that are meant for it. -/
def backQuoted (inDouble : Bool) : Nat → Text → Reader Text
  | 0, _ => refuse "EOF in backquote substitution"
  | fuel + 1, soFar => do
    match ← nextJoined with
    | none => refuse "EOF in backquote substitution"
    | some '\\' =>
      match ← next with
      | none => refuse "EOF in backquote substitution"
      | some c =>
        let isEscape := c = '\\' ∨ c = backQuotation ∨ c = '$' ∨ (inDouble ∧ c = doubleQuotation)
        backQuoted inDouble fuel (c :: if isEscape then soFar else '\\' :: soFar)
    | some c => if c = backQuotation then return soFar.reverse else backQuoted inDouble fuel (c :: soFar)

section Words

variable (insides : Insides)

/-- Documents that are announced inside a substitution belong to it. -/
def apart {α : Type} (read : Reader α) : Reader α := do
  let announced := (← get).announced
  modify fun s => { s with announced := [] }
  let result ← read
  modify fun s => { s with announced }
  return result

/-- What stands behind a dollar sign. -/
def dollar (reading : Reading) (d : Draft) : Reader Draft := do
  let c ← nextJoined
  match c with
  | none => return d.putChar '$' false
  | some first =>
    if reading.isDelimiter then
      back c
      return d.putChar '$' false
    else if first = '(' then
      if ← take? '(' then
        return (d.enter { quoting := .arithmetic, inDouble := true }).openExpansion .arithmetic
      else return d.put (.substitution (← apart insides.substitution))
    else if first = '\x7b' then braced d
    else if isNameStart first then
      let (name, after) ← takeWhile isNamePart c
      back after
      return d.put (.parameter name .none [])
    else if isSpecialParameter first then return d.put (.parameter [first] .none [])
    else
      back c
      return d.putChar '$' false

/-- What stands behind a backslash. -/
def backslashed (reading : Reading) (d : Draft) : Reader Draft := do
  match ← next with
  | none => return d.putChar '\\' true
  | some c =>
    let inBraces := d.context.braces ≠ 0
    let isEscape := c = '\\' ∨ c = backQuotation ∨ c = '$' ∨
      (c = doubleQuotation ∧ (¬ reading.isDocument ∨ inBraces)) ∨ (c = '\x7d' ∧ inBraces)
    let d := if d.context.inDouble ∧ ¬ isEscape then d.putChar '\\' true else d
    return { d.putChar c true with quoted := true }

/-- A parenthesis that closes an arithmetic expression together with the next one. -/
def closeParenthesis (d : Draft) : Reader Draft := do
  if d.context.parentheses > 0 then
    return (d.mapContext fun c => { c with parentheses := c.parentheses - 1 }).putWritten ')'
  else if ← take? ')' then return d.closeExpansion.leave
  else return d.putWritten ')'

def isOperatorChar (c : Char) : Bool := "<>();&| \t".toList.contains c

/-- What one character adds to a draft, unless it ends the word. -/
def step (reading : Reading) (d : Draft) (c : Char) : Reader (Option Draft) := do
  let quoting := d.context.quoting
  let isActive := quoting ≠ .single
  let endsQuotes := ¬ (reading.isDocument ∧ d.context.braces = 0)
  if c = '\n' then
    if quoting = .bare ∧ d.context.braces = 0 then return none else return some (d.putWritten c)
  else if c = '\\' ∧ isActive then return some (← backslashed reading d)
  else if c = quotation ∧ quoting = .bare then
    return some ((d.mapContext fun c => { c with quoting := .single }).putMark reading)
  else if c = quotation ∧ quoting = .single ∧ endsQuotes then
    return some (d.closeQuotes false reading)
  else if c = doubleQuotation ∧ quoting = .bare then return some (d.openDouble reading)
  else if c = doubleQuotation ∧ quoting = .double ∧ endsQuotes then
    return some (d.closeQuotes true reading)
  else if c = '$' ∧ isActive then return some (← dollar insides reading d)
  else if c = '\x7d' ∧ isActive then return some d.closeBrace
  else if c = '(' ∧ quoting = .arithmetic then
    return some ((d.mapContext fun c => { c with parentheses := c.parentheses + 1 }).putWritten c)
  else if c = ')' ∧ quoting = .arithmetic then return some (← closeParenthesis d)
  else if c = backQuotation ∧ isActive then
    if reading.isDelimiter then return some { d.putChar c true with quoted := true }
    else
      let text ← backQuoted d.context.inDouble stepsMax []
      return some (d.put (.substitution (← apart (within text insides.commands))))
  else if isOperatorChar c ∧ quoting = .bare ∧ d.context.braces = 0 then return none
  else return some (d.putWritten c)

/-- The text of the next line, and what is behind it. -/
def restOfLine : List Symbol → Text × List Symbol
  | [] => ([], [])
  | .char '\n' :: rest => ([], .char '\n' :: rest)
  | .char c :: rest =>
    let (line, after) := restOfLine rest
    (c :: line, after)
  | .aliasEnd .. :: rest => restOfLine rest

/-- At the start of a line of a document: whether the document ends with it. -/
def documentEnds (reading : Reading) : Reader Bool := do
  match reading with
  | .document ending unindented =>
    if unindented then
      let (_, c) ← takeWhile (· = '\t') (← next)
      back c
    let s ← get
    let (line, after) := restOfLine s.rest
    if line = ending then
      set { s with rest := after }
      let _ ← next
      return true
    else return false
  | _ => return false

def draftFrom (reading : Reading) : Nat → Draft → Option Char → Reader (Draft × Option Char)
  | 0, d, c => return (d, c)
  | _, d, none => return (d, none)
  | fuel + 1, d, some c => do
    match ← step insides reading d c with
    | none => return (d, some c)
    | some d =>
      let following ← if d.context.quoting = .single then next else nextJoined
      if c = '\n' ∧ reading.isDocument then
        back following
        if ← documentEnds reading then return (d, none) else draftFrom reading fuel d (← next)
      else draftFrom reading fuel d following

/-- The draft from a character on, and the character that ends it. -/
def draft (reading : Reading) (quoting : Quoting) (c : Option Char) : Reader (Draft × Option Char) := do
  let (d, c) ← draftFrom insides reading stepsMax (.start quoting) c
  if d.context.quoting = .arithmetic then refuse "Missing '))'"
  if d.context.quoting ≠ .bare ∧ ¬ reading.isDocument then refuse "Unterminated quoted string"
  if d.context.braces ≠ 0 then refuse "Missing '\x7d'"
  return (d, c)

/-- The sign of a redirection that starts with the given character. -/
def redirectionSign (c : Char) : Reader RedirectionSign := do
  if c = '>' then
    if ← take? '>' then return .file .append
    else if ← take? '|' then return .file .overwrite
    else if ← take? '&' then return .duplicate
    else return .file .write
  else if ← take? '<' then return .document (← take? '-')
  else if ← take? '&' then return .duplicate
  else if ← take? '>' then return .file .both
  else return .file .read

/-- A word, or a redirection if nothing but a digit stands before its sign. -/
def wordOrRedirection (reading : Reading) (c : Option Char) : Reader Token := do
  let (d, c) ← draft insides reading .bare c
  let word := d.parts.reverse
  let digits? := if d.quoted then none else plain? word
  match c, digits? with
  | some c, some digits =>
    let descriptor := digits.foldl (fun _ c => c.toNat - 48) (if c = '>' then 1 else 0)
    if (c = '<' ∨ c = '>') ∧ digits.length ≤ 1 ∧ digits.all Char.isDigit then
      return .redirection descriptor (← redirectionSign c)
    else
      back (some c)
      return .word word d.quoted
  | c, _ =>
    back c
    return .word word d.quoted

/-- The documents that were announced on the line that ends here. -/
def documents : Reader Unit := do
  let announced := (← get).announced
  modify fun s => { s with announced := [] }
  for a in announced do
    let reading := Reading.document a.ending a.unindented
    let first ← if a.plain then next else nextJoined
    back first
    let body ← if ← documentEnds reading then pure [] else do
      let (d, _) ← draft insides reading (if a.plain then .single else .double) (← next)
      pure d.parts.reverse
    modify fun s => { s with documents := (a.number, body) :: s.documents }

end Words

end Reader

end Unjar.Shell
