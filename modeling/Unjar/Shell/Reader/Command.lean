import Unjar.Shell.Reader.Token

/-!
Reading commands. A script is read line by line, so that a line which cannot be read does not keep the ones
before it from being run, and an alias counts from the next line on.
-/

namespace Unjar.Shell

/-- Which list of commands is read: the ones of a line, or the ones inside a compound command, of which
there may have to be one at least. -/
inductive ListKind where
  | line
  | inner (mayBeEmpty : Bool)
  deriving DecidableEq

/-- What compound commands need of the reader of commands inside them. -/
structure Nested where
  list : (mayBeEmpty : Bool) → Reader Command
  /-- A single command, on this line or a later one. -/
  command : Reader Command

/-- The commands of the shell that change the shell itself: a mistake in them ends it. -/
def specialNames : List String :=
  [".", ":", "break", "continue", "eval", "exec", "exit", "export", "local", "readonly", "return", "set", "shift", "times",
    "trap", "unset"]

def isSpecialName (name : Text) : Bool := specialNames.any (·.toList = name)

namespace Reader

/-- Whether a token can only end a list of commands. -/
def endsList : Token → Bool
  | .ending => true
  | .operator text => text == ")" || text == ";;"
  | .keyword text => ["do", "done", "elif", "else", "esac", "fi", "then", "\x7d"].contains text
  | _ => false

section Commands

variable (nested : Nested)

/-- A list puts the token that ends it back, so that it is the one that was read last. -/
def insides : Insides where
  substitution := do
    let body ← nested.list true
    unless isOperator ")" (← get).latest do refuseToken (some (inQuotes ")"))
    modify fun s => { s with again := false }
    return body
  commands := nested.list true

/-- What a redirection is for. -/
def redirection (descriptor : Nat) (sign : RedirectionSign) : Reader Redirection := do
  let place : Place := match sign with
    | .document _ => { isDelimiter := true }
    | _ => {}
  match ← token (insides nested) place with
  | .word word quoted =>
    match sign with
    | .file access => return .file descriptor access word
    | .duplicate => return .duplicate descriptor word
    | .document unindented =>
      let number := (← get).nextDocument
      let announced : Announced := { number, ending := writtenText word, plain := quoted, unindented }
      modify fun s => { s with nextDocument := number + 1, announced := s.announced ++ [announced] }
      return .document descriptor number
  | _ => refuseToken

/-- The redirections behind a compound command. What is behind the first one is no keyword. -/
def redirections : Nat → Place → Reader (List Redirection)
  | 0, _ => return []
  | fuel + 1, place => do
    match ← token (insides nested) place with
    | .redirection descriptor sign => do
      let first ← redirection nested descriptor sign
      return first :: (← redirections fuel {})
    | _ => do
      again
      return []

structure Simple where
  assignments : List Word := []
  words : List Word := []
  redirections : List Redirection := []

/-- The end of the definition of a function, whose name and first parenthesis are read. -/
def function (name : Word) : Reader Command := do
  unless isOperator ")" (← token (insides nested) {}) do refuseToken (some (inQuotes ")"))
  match plain? name with
  | some name =>
    if ¬ isName name ∨ isSpecialName name then refuse "Bad function name"
    return .define (← get).line name (← nested.command)
  | none => refuse "Bad function name"

def simpleFrom (line : Nat) : Nat → Simple → Reader Command
  | 0, _ => refuseToken
  | fuel + 1, soFar => do
    let done : Command := .simple line soFar.assignments soFar.words soFar.redirections
    match ← token (insides nested) { aliases := soFar.words.isEmpty } with
    | .word word _ =>
      if soFar.words.isEmpty ∧ (assignment? word).isSome then
        simpleFrom line fuel { soFar with assignments := soFar.assignments ++ [word] }
      else simpleFrom line fuel { soFar with words := soFar.words ++ [word] }
    | .redirection descriptor sign => do
      let r ← redirection nested descriptor sign
      simpleFrom line fuel { soFar with redirections := soFar.redirections ++ [r] }
    | token =>
      match soFar.words, soFar.assignments, soFar.redirections with
      | [name], [], [] =>
        if isOperator "(" token then function nested name
        else
          again
          return done
      | _, _, _ =>
        again
        return done

/-- The branches behind `if` or `elif`, up to `fi`. -/
def branches : Nat → Reader Command
  | 0 => refuseToken
  | fuel + 1 => do
    let condition ← nested.list false
    expectKeyword (insides nested) "then"
    let positive ← nested.list false
    match ← token (insides nested) {} with
    | .keyword "elif" => return .branch condition positive (← branches fuel)
    | .keyword "else" => do
      let negative ← nested.list false
      expectKeyword (insides nested) "fi"
      return .branch condition positive negative
    | .keyword "fi" => return .branch condition positive .nothing
    | _ => refuseToken (some (inQuotes "fi"))

def loop (whileFailing : Bool) : Reader Command := do
  let condition ← nested.list false
  expectKeyword (insides nested) "do"
  let body ← nested.list false
  expectKeyword (insides nested) "done"
  return .loop whileFailing condition body

def wordsFrom : Nat → Reader (List Word)
  | 0 => return []
  | fuel + 1 => do
    match ← token (insides nested) {} with
    | .word word _ => return word :: (← wordsFrom fuel)
    | _ => return []

/-- A loop over items, which may be on the line or else are the arguments. -/
def forLoop (line : Nat) : Reader Command := do
  let name ← match ← token (insides nested) {} with
    | .word word false =>
      match (plain? word).filter isName with
      | some name => pure name
      | none => refuse "Bad for loop variable"
    | _ => refuse "Bad for loop variable"
  let items ← match ← token (insides nested) .commandStart with
    | .keyword "in" => do
      let items ← wordsFrom nested stepsMax
      match (← get).latest with
      | .newline | .operator ";" => pure (some items)
      | _ => refuseToken
    | .operator ";" => pure none
    | _ => do
      again
      pure none
  unless isKeyword "do" (← token (insides nested) .commandStart) do refuseToken (some (inQuotes "do"))
  let body ← nested.list false
  expectKeyword (insides nested) "done"
  return .forEach line name items body

/-- The patterns of a choice from the token read last on, up to their parenthesis. -/
def patternsFrom : Nat → Reader (List Word)
  | 0 => refuseToken
  | fuel + 1 => do
    let pattern : Word := match (← get).latest with
      | .word word _ => word
      | .keyword text => text.toList.map fun c => .char c false
      | _ => []
    match ← token (insides nested) {} with
    | .operator "|" => do
      let _ ← token (insides nested) {}
      return pattern :: (← patternsFrom fuel)
    | .operator ")" => return [pattern]
    | _ => refuseToken (some (inQuotes ")"))

/-- The choices of a selection, from the token read last on. -/
def armsFrom : Nat → Reader (List Arm)
  | 0 => refuseToken
  | fuel + 1 => do
    let place : Place := { keywords := true, skipsLines := true }
    match ← token (insides nested) place with
    | .keyword "esac" => return []
    | first => do
      if isOperator "(" first then
        let _ ← token (insides nested) {}
      let arm : Arm := .mk (← patternsFrom nested stepsMax) (← nested.list true)
      match ← token (insides nested) place with
      | .keyword "esac" => return [arm]
      | .operator ";;" => return arm :: (← armsFrom fuel)
      | _ => refuseToken (some (inQuotes ";;"))

def choice (line : Nat) : Reader Command := do
  match ← token (insides nested) {} with
  | .word subject _ =>
    unless isKeyword "in" (← token (insides nested) .commandStart) do refuseToken (some (inQuotes "in"))
    return .choose line subject (← armsFrom nested stepsMax)
  | _ => refuseToken (some "word")

/-- A command, read from its first token on. -/
def commandAt (place : Place) : Reader Command := do
  let line := (← get).line
  let withRedirections (compound : Command) : Reader Command := do
    let rs ← redirections nested stepsMax .sameLine
    if rs.isEmpty then return compound
    match compound with
    | .subshell line inner _ => return .subshell line inner rs
    | compound => return .redirected line compound rs
  match ← token (insides nested) place with
  | .keyword "if" => withRedirections (← branches nested stepsMax)
  | .keyword "while" => withRedirections (← loop nested false)
  | .keyword "until" => withRedirections (← loop nested true)
  | .keyword "for" => withRedirections (← forLoop nested line)
  | .keyword "case" => withRedirections (← choice nested line)
  | .operator "(" => do
    let body ← nested.list false
    unless isOperator ")" (← token (insides nested) {}) do refuseToken (some (inQuotes ")"))
    withRedirections (.subshell line body [])
  | .keyword "\x7b" => do
    let body ← nested.list false
    expectKeyword (insides nested) "\x7d"
    withRedirections body
  | .word .. | .redirection .. => do
    again
    simpleFrom nested (← get).line stepsMax {}
  | _ => refuseToken

def stagesFrom : Nat → Reader (List Command)
  | 0 => return []
  | fuel + 1 => do
    match ← token (insides nested) {} with
    | .operator "|" => do
      let stage ← commandAt nested .commandStart
      return stage :: (← stagesFrom fuel)
    | _ => do
      again
      return []

def pipeline (place : Place) : Reader Command := do
  let isNegated := isKeyword "!" (← token (insides nested) place)
  unless isNegated do again
  let first ← commandAt nested (if isNegated then .sameLine else {})
  let more ← stagesFrom nested stepsMax
  let whole := if more.isEmpty then first else .pipeline (first :: more)
  return if isNegated then .negate whole else whole

def andOrFrom : Nat → Command → Reader Command
  | 0, first => return first
  | fuel + 1, first => do
    match ← token (insides nested) {} with
    | .operator "&&" => do andOrFrom fuel (.andThen first (← pipeline nested .commandStart))
    | .operator "||" => do andOrFrom fuel (.orElse first (← pipeline nested .commandStart))
    | _ => do
      again
      return first

def followedBy (first : Option Command) (second : Command) : Command :=
  match first with
  | some first => .sequence first second
  | none => second

/-- The commands of a list, behind the ones read so far. Nothing is yielded for a script that is at its
end. -/
def listFrom (kind : ListKind) : Nat → Option Command → Reader (Option Command)
  | 0, soFar => return soFar
  | fuel + 1, soFar => do
    let isLine := kind = .line
    let ended : Reader (Option Command) := do
      documents (insides nested)
      again
      return if isLine then soFar else some (soFar.getD .nothing)
    match ← token (insides nested) { Place.commandStart with skipsLines := ¬ isLine } with
    | .newline => do
      documents (insides nested)
      return some (soFar.getD .nothing)
    | .ending => ended
    | first =>
      again
      if (kind = .inner true ∨ (soFar.isSome ∧ ¬ isLine)) ∧ endsList first then
        return some (soFar.getD .nothing)
      let command ← pipeline nested {}
      let command ← andOrFrom nested stepsMax command
      match ← token (insides nested) {} with
      | .operator "&" => listFrom kind fuel (some (followedBy soFar (.background command)))
      | .operator ";" => listFrom kind fuel (some (followedBy soFar command))
      | .newline => do
        again
        listFrom kind fuel (some (followedBy soFar command))
      | .ending => do
        documents (insides nested)
        again
        return some (followedBy soFar command)
      | _ =>
        if isLine then refuseToken
        else
          again
          return some (followedBy soFar command)

end Commands

/-- Commands may stand so deep inside others. -/
def depthMax : Nat := 10000

/-- The readers of what stands inside compound commands and substitutions. -/
def nestedIn : Nat → Nested
  | 0 => { list := fun _ => refuse "too deep", command := refuse "too deep" }
  | depth + 1 =>
    { list := fun mayBeEmpty source =>
        (listFrom (nestedIn depth) (.inner mayBeEmpty) stepsMax none).map (·.getD .nothing) source
      command := fun source => commandAt (nestedIn depth) .commandStart source }

/-- A text whose expansions are read as in a document. -/
def asDocument : Reader Word := do
  let c ← next
  let (d, _) ← draft (insides (nestedIn depthMax)) (.document [] false) .double c
  return d.parts.reverse

/-- The commands of the next line, or nothing at the end of the script. -/
def line : Reader (Option Command) := do
  modify fun s => { s with again := false, announced := [] }
  listFrom (nestedIn depthMax) .line stepsMax none

end Reader

end Unjar.Shell
