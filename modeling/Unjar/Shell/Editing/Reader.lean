import Unjar.Shell.Editing.Basic
import Unjar.Shell.Regex.Reader

/-!
Reading editing scripts.
-/

namespace Unjar.Shell.Editing

/-- What is still to be read of a script, how much was read, and the blocks that are open. -/
structure Reading where
  rest : Text
  place : Nat := 0
  instructions : List Instruction := []
  /-- Where the open blocks start, the innermost first. -/
  blocks : List Nat := []

/-- What is wrong with a script, and where. -/
structure Mistake where
  place : Nat
  message : String

abbrev Parse := EStateM Mistake Reading

def mistaken {α : Type} (message : String) : Parse α := do
  throw { place := (← get).place, message }

/-- A sign in the quotes of messages. -/
def named (sign : Char) : String := String.ofList [backQuotation, sign, quotation]

/-- The instruction that replaces what it finds, in messages. -/
def ofReplacing : String := named 's' ++ " command"

def peek : Parse (Option Char) := return (← get).rest.head?

def skipChars (count : Nat) : Parse Unit :=
  modify fun r => { r with rest := r.rest.drop count, place := r.place + count }

def take : Parse (Option Char) := do
  let c ← peek
  if c.isSome then skipChars 1
  return c

def takeWhile (p : Char → Bool) : Parse Text := do
  let text := (← get).rest.takeWhile p
  skipChars text.length
  return text

def skipSpaces : Parse Unit := do
  let _ ← takeWhile isSpace

def skipBlanks : Parse Unit := do
  let _ ← takeWhile fun c => isSpace c && c ≠ '\n'

/-- A character that is written with a backslash: what it is, and what comes next. -/
def escapedChar? (text : Text) : Option (Char × Text) :=
  let coded (base count : Nat) (rest : Text) : Option (Char × Text) :=
    let digits := (rest.take count).takeWhile (isDigitIn base)
    if digits = [] then none else some (Char.ofNat (valueIn base digits % 256), rest.drop digits.length)
  match text with
  | 'n' :: rest => some ('\n', rest)
  | 't' :: rest => some ('\t', rest)
  | 'a' :: rest => some ('\x07', rest)
  | 'f' :: rest => some ('\x0c', rest)
  | 'v' :: rest => some ('\x0b', rest)
  | 'r' :: rest => some ('\x0d', rest)
  | 'c' :: c :: rest => some (Char.ofNat (if 64 ≤ c.toUpper.toNat then c.toUpper.toNat - 64 else c.toNat + 64), rest)
  | 'd' :: rest => coded 10 3 rest
  | 'o' :: rest => coded 8 3 rest
  | 'x' :: rest => coded 16 2 rest
  | _ => none

/-- A text with the characters that are written with backslashes. -/
def withEscapes : Nat → Text → Text
  | 0, text => text
  | fuel + 1, text =>
    match text with
    | [] => []
    | '\\' :: rest =>
      match escapedChar? rest, rest with
      | some (c, rest), _ => c :: withEscapes fuel rest
      | none, c :: rest => '\\' :: c :: withEscapes fuel rest
      | none, [] => ['\\']
    | c :: rest => c :: withEscapes fuel rest

/-- What stands before the next sign that closes it. In a regular expression it does not count between
brackets. -/
def upToSign (sign : Char) (isRegex : Bool) : Nat → (inBrackets : Bool) → Text → Parse (Option Text)
  | 0, _, _ => return none
  | fuel + 1, inBrackets, soFar => do
    match (← get).rest with
    | [] | '\n' :: _ => return none
    | '\\' :: c :: _ => do
      skipChars 2
      let isBare := !inBrackets && (c = sign || (c = '\n' && isRegex))
      upToSign sign isRegex fuel (inBrackets && c ≠ ']') (if isBare then c :: soFar else c :: '\\' :: soFar)
    | c :: rest =>
      skipChars 1
      if ¬ inBrackets then
        if c = sign then return some soFar.reverse
        else upToSign sign isRegex fuel (isRegex && c = '[') (c :: soFar)
      else match if c = '[' then CharClass.atFront? rest else none with
        | some (_, after) =>
          let name := rest.take (rest.length - after.length)
          skipChars name.length
          upToSign sign isRegex fuel true (name.reverse ++ c :: soFar)
        | none =>
          let isFirst := soFar.head? = some '[' || (soFar.head? = some '^' && soFar.tail.head? = some '[')
          upToSign sign isRegex fuel (c ≠ ']' || isFirst) (c :: soFar)

def delimited (sign : Char) (isRegex : Bool) : Parse (Option Text) := do
  upToSign sign isRegex ((← get).rest.length + 1) false []

def soughtOf (extended : Bool) (mode : Regex.Mode) (text : Text) : Parse Sought := do
  if text = [] then return { regex := none, mode }
  match Regex.ofText extended (withEscapes (text.length + 1) text) with
  | .ok r => return { regex := some r, mode }
  | .error message => mistaken message

def number : Parse Nat := return valueIn 10 (← takeWhile Char.isDigit)

/-- The letters behind a regular expression of an address. -/
def addressMode : Nat → Regex.Mode → Parse Regex.Mode
  | 0, mode => return mode
  | fuel + 1, mode => do
    match ← peek with
    | some 'I' =>
      skipChars 1
      addressMode fuel { mode with ignoresCase := true }
    | some 'M' =>
      skipChars 1
      addressMode fuel { mode with manyLines := true }
    | _ => return mode

def foundPlace (extended : Bool) (sign : Char) : Parse Place := do
  match ← delimited sign true with
  | none => mistaken "unterminated address regex"
  | some text =>
    let mode ← addressMode ((← get).rest.length) {}
    return .found (← soughtOf extended mode text)

/-- A place, if one comes next. -/
def place? (extended : Bool) : Parse (Option Place) := do
  match ← peek with
  | some '/' =>
    skipChars 1
    return some (← foundPlace extended '/')
  | some '\\' =>
    skipChars 1
    match ← take with
    | some sign => return some (← foundPlace extended sign)
    | none => mistaken ("unexpected " ++ named ',')
  | some '$' =>
    skipChars 1
    return some .lastLine
  | some c =>
    if c = '+' ∨ c = '~' then
      skipChars 2
      mistaken "invalid usage of +N or ~N as first address"
    if ¬ c.isDigit then return none
    let first ← number
    if (← peek) = some '~' then
      skipChars 1
      return some (.every first (← number))
    return some (.line first)
  | none => return none

def rangeEnd (extended : Bool) : Parse RangeEnd := do
  match ← peek with
  | some '+' =>
    skipChars 1
    return .after (← number)
  | some '~' =>
    skipChars 1
    return .multiple (← number)
  | _ =>
    match ← place? extended with
    | some place => return .upTo place
    | none => do
      let _ ← take
      mistaken ("unexpected " ++ named ',')

def selection (extended : Bool) : Parse Selection := do
  let first ← place? extended
  skipSpaces
  let last ← match first, ← peek with
    | some _, some ',' => do
      skipChars 1
      skipSpaces
      pure (some (← rangeEnd extended))
    | _, _ => pure none
  match first, last with
  | some (.line 0), some (.upTo (.found _)) => pure ()
  | some (.line 0), _ => do
    if last.isNone then skipChars 1
    mistaken "invalid usage of line address 0"
  | _, _ => pure ()
  skipSpaces
  if (← peek) = some '!' then
    skipChars 1
    skipSpaces
    if (← peek) = some '!' then
      skipChars 1
      mistaken ("multiple " ++ named '!' ++ "s")
    return { first, last, negated := true }
  return { first, last }

/-- An instruction ends here. -/
def ending : Parse Unit := do
  skipBlanks
  match ← peek with
  | none | some '\x7d' | some '#' => return
  | some c => do
    skipChars 1
    if c ≠ ';' ∧ c ≠ '\n' then mistaken "extra characters after command"

def fileName : Parse Text := do
  skipBlanks
  let name ← takeWhile (· ≠ '\n')
  if name = [] then mistaken "missing filename in r/R/w/W commands"
  return name

/-- Text up to the end of a line that has no backslash in front of it. -/
def textUpToLineEnd : Nat → Text → Parse Text
  | 0, soFar => return soFar.reverse
  | fuel + 1, soFar => do
    match ← take with
    | none | some '\n' => return ('\n' :: soFar).reverse
    | some '\\' =>
      match escapedChar? (← get).rest with
      | some (c, rest) =>
        skipChars ((← get).rest.length - rest.length)
        textUpToLineEnd fuel (c :: soFar)
      | none =>
        match ← take with
        | none => return ('\n' :: soFar).reverse
        | some c => textUpToLineEnd fuel (c :: soFar)
    | some c => textUpToLineEnd fuel (c :: soFar)

/-- The text of an instruction, on its line or on those below it. -/
def givenText : Parse Text := do
  skipBlanks
  match (← get).rest with
  | [] => mistaken <| "expected \\ after " ++ named 'a' ++ ", " ++ named 'c' ++ " or " ++ named 'i'
  | '\\' :: rest =>
    skipChars 1
    let blanks := rest.takeWhile isBlank
    if (rest.drop blanks.length).head? = some '\n' then skipChars (blanks.length + 1)
    if rest = [] then return []
  | _ => pure ()
  textUpToLineEnd ((← get).rest.length + 1) []

def labelName : Parse Text := do
  skipBlanks
  takeWhile fun c => ¬ isSpace c ∧ c ≠ ';' ∧ c ≠ '\x7d'

def optionalNumber : Parse (Option Nat) := do
  skipBlanks
  if (← peek).any Char.isDigit then return some (← number) else return none

/-- The parts of a replacement. -/
def partsOf : Nat → Text → Text → List Part
  | 0, soFar, _ => [.text soFar.reverse]
  | fuel + 1, soFar, text =>
    let close (part : Part) (rest : Text) := .text soFar.reverse :: part :: partsOf fuel [] rest
    match text with
    | [] => [.text soFar.reverse]
    | '&' :: rest => close (.group 0) rest
    | '\\' :: c :: rest =>
      if c.isDigit then close (.group (valueIn 10 [c])) rest
      else match c with
        | 'U' => close (.lettering .upper) rest
        | 'L' => close (.lettering .lower) rest
        | 'u' => close (.lettering .upperNext) rest
        | 'l' => close (.lettering .lowerNext) rest
        | 'E' => close (.lettering .asTheyAre) rest
        | c =>
          match escapedChar? (c :: rest) with
          | some (d, rest) => partsOf fuel (d :: soFar) rest
          | none => partsOf fuel (c :: soFar) rest
    | c :: rest => partsOf fuel (c :: soFar) rest

/-- The letters behind a replacement. -/
structure Flags where
  start : Option Nat := none
  all : Bool := false
  shows : Bool := false
  mode : Regex.Mode := {}
  file : Option Text := none

def flags : Nat → Flags → Parse Flags
  | 0, f => return f
  | fuel + 1, f => do
    match ← peek with
    | none | some '\x7d' | some '#' => return f
    | some c =>
      if c.isDigit then
        let n ← number
        if f.start.isSome then mistaken ("multiple number options to " ++ ofReplacing)
        if n = 0 then mistaken ("number option to " ++ ofReplacing ++ " may not be zero")
        flags fuel { f with start := some n }
      else
        skipChars 1
        match c with
        | ';' | '\n' => return f
        | 'g' =>
          if f.all then mistaken ("multiple " ++ named 'g' ++ " options to " ++ ofReplacing)
          flags fuel { f with all := true }
        | 'p' =>
          if f.shows then mistaken ("multiple " ++ named 'p' ++ " options to " ++ ofReplacing)
          flags fuel { f with shows := true }
        | 'i' | 'I' => flags fuel { f with mode := { f.mode with ignoresCase := true } }
        | 'm' | 'M' => flags fuel { f with mode := { f.mode with manyLines := true } }
        | 'w' => return { f with file := some (← fileName) }
        | ' ' => flags fuel f
        | _ => mistaken ("unknown option to " ++ named 's')

def replacement (extended : Bool) : Parse Edit := do
  let unterminated {α : Type} : Parse α := mistaken ("unterminated " ++ ofReplacing)
  match ← take with
  | none | some '\n' | some '\\' => unterminated
  | some sign =>
    match ← delimited sign true with
    | none => unterminated
    | some regex =>
      match ← delimited sign false with
      | none => unterminated
      | some text =>
        let f ← flags ((← get).rest.length + 1) {}
        let sought ← soughtOf extended f.mode regex
        let parts := partsOf (text.length + 1) [] text
        let highest := (parts.map fun part => match part with
          | .group number => number
          | _ => 0).foldl max 0
        if sought.regex.any fun r => r.groupCount < highest then
          mistaken (s!"invalid reference \\{highest} on " ++ ofReplacing ++ "'s RHS")
        return .replace { sought, parts, start := f.start.getD 1, all := f.all, shows := f.shows, file := f.file }

/-- The characters that are exchanged for others. -/
def exchangedChars : Nat → Text → Text
  | 0, text => text
  | fuel + 1, text =>
    match text with
    | '\\' :: '\\' :: rest => '\\' :: exchangedChars fuel rest
    | '\\' :: rest =>
      match escapedChar? rest with
      | some (c, rest) => c :: exchangedChars fuel rest
      | none => '\\' :: exchangedChars fuel rest
    | c :: rest => c :: exchangedChars fuel rest
    | [] => []

def exchange : Parse Edit := do
  let unterminated {α : Type} : Parse α := mistaken ("unterminated " ++ named 'y' ++ " command")
  match ← take with
  | none => unterminated
  | some sign =>
    match ← delimited sign false with
    | none => unterminated
    | some first =>
      match ← delimited sign false with
      | none => unterminated
      | some second =>
        let first := exchangedChars (first.length + 1) first
        let second := exchangedChars (second.length + 1) second
        if first.length ≠ second.length then
          mistaken ("strings for " ++ named 'y' ++ " command are different lengths")
        ending
        return .exchangeChars (first.zip second)

def plainEdit? : Char → Option Edit
  | '=' => some .showNumber
  | 'd' => some .delete
  | 'D' => some .deleteLine
  | 'F' => some .showName
  | 'g' => some .takeHeld
  | 'G' => some .takeHeldToo
  | 'h' => some .hold
  | 'H' => some .holdToo
  | 'n' => some .next
  | 'N' => some .nextToo
  | 'p' => some .showText
  | 'P' => some .showLine
  | 'x' => some .exchange
  | 'z' => some .clear
  | _ => none

def put (selection : Selection) (edit : Edit) : Parse Unit :=
  modify fun r => { r with instructions := r.instructions ++ [{ selection, edit }] }

/-- Ends the innermost block. -/
def closeBlock (selection : Selection) : Parse Unit := do
  if selection.first.isSome then mistaken "\x7d doesn't want any addresses"
  let r ← get
  match r.blocks with
  | [] => mistaken ("unexpected " ++ named '\x7d')
  | start :: blocks =>
    let stop := r.instructions.length
    let closed := r.instructions.modify start fun i => { i with edit := .block stop }
    set { r with instructions := closed, blocks }
    put {} .blockEnd
    ending

/-- Reads what an instruction does, from its letter. -/
def edit (extended : Bool) (s : Selection) (letter : Char) : Parse Unit := do
  match plainEdit? letter with
  | some edit =>
    ending
    put s edit
  | none =>
    match letter with
    | '\x7b' => do
      modify fun r => { r with blocks := r.instructions.length :: r.blocks }
      put s (.block 0)
    | '\x7d' => closeBlock s
    | ':' =>
      if s.first.isSome then mistaken ": doesn't want any addresses"
      skipBlanks
      let name ← takeWhile fun c => ¬ isSpace c ∧ c ≠ ';'
      if name = [] then mistaken "\":\" lacks a label"
      put s (.label name)
    | 'a' => put s (.append (← givenText))
    | 'i' => put s (.insert (← givenText))
    | 'c' => put s (.change (← givenText))
    | 'b' => jumping .jump
    | 't' => jumping .jumpIfReplaced
    | 'T' => jumping .jumpUnlessReplaced
    | 'l' => do
      let width ← optionalNumber
      ending
      put s (.spell width)
    | 'q' | 'Q' => do
      if s.last.isSome then mistaken "command only uses one address"
      let status ← optionalNumber
      ending
      put s (.quit (letter = 'Q') (status.getD 0))
    | 'r' => put s (.readFile (← fileName))
    | 'R' => put s (.readLine (← fileName))
    | 'v' => do
      let _ ← labelName
      ending
    | 'w' => put s (.writeTo (← fileName))
    | 'W' => put s (.writeLineTo (← fileName))
    | 's' => put s (← replacement extended)
    | 'y' => put s (← exchange)
    | letter => mistaken ("unknown command: " ++ named letter)
where
  jumping (make : Text → Edit) : Parse Unit := do
    let name ← labelName
    ending
    put s (make name)

def instructions (extended : Bool) : Nat → Parse Unit
  | 0 => return
  | fuel + 1 => do
    let _ ← takeWhile fun c => isSpace c ∨ c = ';'
    if (← get).rest = [] then return
    let s ← selection extended
    match ← take with
    | none => mistaken "missing command"
    | some '#' =>
      if s.first.isSome then mistaken "comments don't accept any addresses"
      let _ ← takeWhile (· ≠ '\n')
    | some letter => edit extended s letter
    instructions extended fuel

/-- Reads a piece of a script behind other pieces. -/
def readPiece (extended : Bool) (before : Reading) (text : Text) : Except Mistake Reading :=
  match instructions extended (text.length + 1) { before with rest := text, place := 0 } with
  | .ok _ after => .ok after
  | .error mistake _ => .error mistake

end Unjar.Shell.Editing
