import Unjar.Shell.Command

/-!
The text of a script while it is read. An alias puts its own text in front of the rest, and the end of
that text is marked, since until then the alias does not stand for its text again.
-/

namespace Unjar.Shell

/-- What is still to be read: a character, or the place where the text of an alias ends. Behind one that
ends in a blank the next word may be an alias too. -/
inductive Symbol where
  | char (c : Char)
  | aliasEnd (name : Text) (afterBlank : Bool)

inductive RedirectionSign where
  | file (access : Access)
  | duplicate
  | document (unindented : Bool)

inductive Token where
  | word (word : Word) (quoted : Bool)
  | redirection (descriptor : Nat) (sign : RedirectionSign)
  | keyword (text : String)
  | operator (text : String)
  | newline
  | ending

/-- A document that was announced and follows after the line. -/
structure Announced where
  number : Nat
  ending : Text
  plain : Bool
  unindented : Bool

structure Source where
  rest : List Symbol
  line : Nat := 1
  aliases : List (Text × Text) := []
  /-- The aliases whose text is being read. -/
  busy : List Text := []
  /-- Whether the next word may be an alias wherever it stands. -/
  aliasNext : Bool := false
  /-- The token that was read last. -/
  latest : Token := .ending
  /-- Whether that token is still to be read again. -/
  again : Bool := false
  announced : List Announced := []
  documents : List (Nat × Word) := []
  /-- The number of the next document. -/
  nextDocument : Nat := 0

/-- Why a script cannot be read on. -/
structure Refusal where
  line : Nat
  message : String

abbrev Reader := EStateM Refusal Source

def Source.ofText (text : Text) : Source :=
  { rest := text.map Symbol.char }

def inQuotes (text : String) : String := s!"\"{text}\""

def Token.description : Token → String
  | word .. => "word"
  | redirection .. => "redirection"
  | keyword text | operator text => inQuotes text
  | newline => "newline"
  | ending => "end of file"

namespace Reader

/-- So many characters and tokens are read at most. -/
def stepsMax : Nat := 100000000

def refuse {α : Type} (message : String) : Reader α := do
  throw { line := (← get).line, message := s!"Syntax error: {message}" }

/-- So much is said of a token that is out of place. -/
def complaintMax : Nat := 63

/-- The token that was read last is out of place. -/
def refuseToken {α : Type} (expected : Option String := none) : Reader α := do
  let found := (← get).latest.description
  let complaint := match expected with
    | some text => s!"{found} unexpected (expecting {text})"
    | none => s!"{found} unexpected"
  refuse (shown (complaint.toList.take complaintMax))

def firstChar (s : Source) : List Symbol → Option Char × Source
  | [] => (none, { s with rest := [] })
  | .char c :: rest => (some c, { s with rest, line := if c = '\n' then s.line + 1 else s.line })
  | .aliasEnd name afterBlank :: rest =>
    firstChar { s with busy := s.busy.erase name, aliasNext := s.aliasNext || afterBlank } rest

def next : Reader (Option Char) :=
  modifyGet fun s => firstChar s s.rest

/-- Puts a character back. -/
def back : Option Char → Reader Unit
  | none => return
  | some c => modify fun s =>
    { s with rest := .char c :: s.rest, line := if c = '\n' then s.line - 1 else s.line }

def nextJoinedFrom : Nat → Reader (Option Char)
  | 0 => return none
  | fuel + 1 => do
    match ← next with
    | some '\\' =>
      match ← next with
      | some '\n' => nextJoinedFrom fuel
      | c =>
        back c
        return some '\\'
    | c => return c

/-- The next character of lines that are joined where a backslash ends them. -/
def nextJoined : Reader (Option Char) := nextJoinedFrom stepsMax

def skipLineFrom : Nat → Reader Unit
  | 0 => return
  | fuel + 1 => do
    match ← next with
    | none => return
    | some '\n' => back (some '\n')
    | some _ => skipLineFrom fuel

/-- Skips the rest of the line. -/
def skipLine : Reader Unit := skipLineFrom stepsMax

/-- Puts the text of an alias in front. -/
def expandAlias (name text : Text) : Reader Unit :=
  unless text = [] do
    let afterBlank := text.getLast?.any isBlank
    let symbols := (if afterBlank then text else text ++ [' ']).map Symbol.char
    modify fun s => { s with
      rest := symbols ++ .aliasEnd name afterBlank :: s.rest
      busy := name :: s.busy }

/-- Reads another text for a while. Its lines are counted from its start. -/
def within {α : Type} (text : Text) (read : Reader α) : Reader α := do
  let outside ← get
  set { outside with rest := text.map Symbol.char, line := 1, again := false }
  let result ← read
  modify fun s => { s with
    rest := outside.rest, line := outside.line, busy := outside.busy, again := false }
  return result

/-- Takes a character if it is the given one. -/
def take? (wanted : Char) : Reader Bool := do
  let c ← nextJoined
  if c = some wanted then return true
  else
    back c
    return false

end Reader

end Unjar.Shell
