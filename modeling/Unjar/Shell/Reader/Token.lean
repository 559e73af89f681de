import Unjar.Shell.Reader.Word

namespace Unjar.Shell

/-- What a word may be besides itself where it stands, and whether line ends count. -/
structure Place where
  keywords : Bool := false
  aliases : Bool := false
  skipsLines : Bool := false
  isDelimiter : Bool := false

/-- Where a command starts, on this line or a later one. -/
def Place.commandStart : Place := { keywords := true, aliases := true, skipsLines := true }

/-- Where a command starts on this line. -/
def Place.sameLine : Place := { keywords := true, aliases := true }

namespace Reader

def keywords : List String :=
  ["!", "case", "do", "done", "elif", "else", "esac", "fi", "for", "if", "in", "then", "until", "while",
    "\x7b", "\x7d"]

section Tokens

variable (insides : Insides)

/-- The next token, whatever it may stand for. -/
def rawTokenFrom (reading : Reading) : Nat → Reader Token
  | 0 => refuse "end of file unexpected"
  | fuel + 1 => do
    let withDouble (c : Char) (single double : String) : Reader Token := do
      return .operator (if ← take? c then double else single)
    let c ← nextJoined
    match c with
    | none => return .ending
    | some ' ' | some '\t' => rawTokenFrom reading fuel
    | some '#' => do
      skipLine
      rawTokenFrom reading fuel
    | some '\n' => return .newline
    | some '&' => withDouble '&' "&" "&&"
    | some '|' => withDouble '|' "|" "||"
    | some ';' => withDouble ';' ";" ";;"
    | some '(' => return .operator "("
    | some ')' => return .operator ")"
    | c => wordOrRedirection insides reading c

def rawToken (reading : Reading) : Reader Token := do
  let s ← get
  if s.again then
    set { s with again := false }
    return s.latest
  let token ← rawTokenFrom insides reading stepsMax
  modify fun s => { s with latest := token }
  return token

def readPastLines (reading : Reading) : Nat → Token → Reader Token
  | 0, token => return token
  | fuel + 1, token => do
    match token with
    | .newline => do
      documents insides
      readPastLines reading fuel (← rawToken insides reading)
    | token => return token

/-- The next token as its place asks for it. -/
def tokenFrom : Nat → Place → Reader Token
  | 0, _ => rawToken insides .word
  | fuel + 1, place => do
    let reading : Reading := if place.isDelimiter then .delimiter else .word
    let token ← rawToken insides reading
    let token ← if place.skipsLines then readPastLines insides reading stepsMax token else pure token
    let s ← get
    set { s with aliasNext := false }
    let place := { place with aliases := place.aliases || s.aliasNext }
    let known (token : Token) : Reader Token := do
      modify fun s => { s with latest := token }
      return token
    match token with
    | .word word false =>
      match plain? word with
      | none => known token
      | some text =>
        match if place.keywords then keywords.find? (·.toList = text) else none with
        | some keyword => known (.keyword keyword)
        | none =>
          match if place.aliases ∧ ¬ s.busy.contains text then s.aliases.lookup text else none with
          | some meaning => do
            expandAlias text meaning
            tokenFrom fuel place
          | none => known token
    | token => known token

def token (place : Place) : Reader Token := tokenFrom insides stepsMax place

/-- Puts the token that was read last back. -/
def again : Reader Unit := modify fun s => { s with again := true }

def isOperator (text : String) : Token → Bool
  | .operator found => found == text
  | _ => false

def isKeyword (text : String) : Token → Bool
  | .keyword found => found == text
  | _ => false

def expectKeyword (text : String) : Reader Unit := do
  unless isKeyword text (← token insides {}) do refuseToken (some (inQuotes text))

end Tokens

end Reader

end Unjar.Shell
