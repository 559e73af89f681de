import Unjar.Shell.Regex.Reader
import Unjar.Shell.Utility.Showing

/-!
The program that shows the lines in which something is found.
-/

namespace Unjar.Shell

def matchingGrammar : Grammar where
  letters := "EFGPe:f:ivwxclLqsnHhom:A:B:C:rRazbT"
  names := [("extended-regexp", 'E'), ("fixed-strings", 'F'), ("basic-regexp", 'G'), ("perl-regexp", 'P'),
    ("regexp", 'e'), ("file", 'f'), ("ignore-case", 'i'), ("invert-match", 'v'), ("word-regexp", 'w'),
    ("line-regexp", 'x'), ("count", 'c'), ("files-with-matches", 'l'), ("files-without-match", 'L'), ("quiet", 'q'),
    ("silent", 'q'), ("no-messages", 's'), ("line-number", 'n'), ("with-filename", 'H'), ("no-filename", 'h'),
    ("only-matching", 'o'), ("max-count", 'm'), ("after-context", 'A'), ("before-context", 'B'), ("context", 'C'),
    ("recursive", 'r'), ("text", 'a')]
  status := 2

/-- A pattern in which a letter behind a backslash stands for digits. -/
def withDigits : Text → Text
  | '\\' :: 'd' :: rest => "[0-9]".toList ++ withDigits rest
  | '\\' :: 'D' :: rest => "[^0-9]".toList ++ withDigits rest
  | '\\' :: 't' :: rest => '\t' :: withDigits rest
  | '\\' :: c :: rest => '\\' :: c :: withDigits rest
  | c :: rest => c :: withDigits rest
  | [] => []

/-- What is looked for, and how it is shown. -/
structure Search where
  self : Text
  regexes : List Regex
  accepts : Regex.Cursor → Regex.Cursor → Bool
  mode : Regex.Mode
  inverted : Bool
  given : Given
  showsNames : Bool
  limit : Option Nat
  before : Nat
  after : Nat

namespace Search

def selects (s : Search) (line : Text) : Bool :=
  (s.regexes.any fun r => (Regex.searchWhere s.accepts s.mode r 0 none line).isSome) != s.inverted

/-- What stands in front of a line. -/
def front (s : Search) (name : Text) (number : Nat) (sign : Char) : Text :=
  (if s.showsNames then name ++ [sign] else []) ++
    if s.given.has "n" then decimalOf number ++ [sign] else []

/-- The parts of a line that match, the first of several at one place being the longest. -/
def parts (s : Search) : Nat → Nat → Option Char → Text → List Text
  | 0, _, _, _ => []
  | fuel + 1, place, before, text =>
    let found := s.regexes.filterMap fun r => Regex.searchWhere s.accepts s.mode r place before text
    let better (a b : Regex.Match) : Regex.Match :=
      if b.start < a.start ∨ (b.start = a.start ∧ a.text.length < b.text.length) then b else a
    match found with
    | [] => []
    | first :: others =>
      let m := others.foldl better first
      if m.text = [] then
        match m.rest with
        | [] => []
        | c :: rest => parts s fuel (m.start + 1) (some c) rest
      else m.text :: parts s fuel (m.start + m.text.length) m.text.getLast? m.rest

/-- The lines with their numbers, up to as many selected ones as are wanted. -/
def scan (s : Search) (lines : List Text) : List (Nat × Text × Bool) :=
  let numbered := ((List.range lines.length).zip lines).map fun (n, line) => (n + 1, line, s.selects line)
  match s.limit with
  | none => numbered
  | some limit => cut limit numbered
where
  cut : Nat → List (Nat × Text × Bool) → List (Nat × Text × Bool)
    | _, [] => []
    | 0, entry :: rest => if entry.2.2 then [] else entry :: cut 0 rest
    | limit + 1, entry :: rest => entry :: cut (if entry.2.2 then limit else limit + 1) rest

/-- Whether a line is near enough to a selected one to be shown. -/
def isNear (s : Search) (selected : List Nat) (number : Nat) : Bool :=
  selected.any fun n => (number ≤ n && n ≤ number + s.before) || (n ≤ number && number ≤ n + s.after)

/-- Searches one input, and tells whether something was found. -/
def inText (s : Search) (name : Text) (data : Bytes) : Eval Bool := do
  let entries := s.scan (textLines data)
  let selected := (entries.filter (·.2.2)).map Prod.fst
  let isFound := selected ≠ []
  let g := s.given
  let isBinary := data.contains 0 && !g.has "a"
  if g.has "q" then return isFound
  if g.has "l" then
    if isFound then emitLine s.self name
  else if g.has "L" then
    if ¬ isFound then emitLine s.self name
  else if g.has "c" then
    emitLine s.self ((if s.showsNames then name ++ [':'] else []) ++ decimalOf selected.length)
  else if isBinary then
    if isFound then complain s.self s!"{shown name}: binary file matches"
  else
    let mut last := 0
    for (number, line, isSelected) in entries do
      if isSelected ∨ s.isNear selected number then
        if last ≠ 0 ∧ last + 1 < number ∧ s.before + s.after > 0 then emitLine s.self ['-', '-']
        last := number
        let front := s.front name number (if isSelected then ':' else '-')
        if g.has "o" then
          if isSelected ∧ ¬ s.inverted then
            for part in s.parts (line.length + 1) 0 none line do emitLine s.self (front ++ part)
        else emitLine s.self (front ++ line)
  return isFound

end Search

/-- The files below a directory, each with its name. -/
def filesBelow (fs : FileSystem) : Nat → Text → Location → List Text
  | 0, _, _ => []
  | fuel + 1, name, l =>
    (fs.entriesAt l).flatMap fun (entry, node) =>
      let inner := childOf name (ofOctets entry)
      match node with
      | .directory _ => filesBelow fs fuel inner (l ++ [entry])
      | .file .. => [inner]
      | _ => []

def showMatches : Utility := fun self arguments => do
  let g ← matchingGrammar.read self (oldContext arguments)
  let given := (g.options.filter fun option => option.1 = 'e' ∨ option.1 = 'f')
  let (patterns, operands) ← match given, g.operands with
    | [], [] => do
      say 2 (s!"Usage: {shown self} [OPTION]... PATTERNS [FILE]...\nTry '{shown self} " ++ longHelp).toList
      throw (.exit 2)
    | [], pattern :: operands => pure (pattern.splitOn '\n', operands)
    | given, operands => do
      let mut patterns := []
      for (letter, text) in given do
        if letter = 'e' then patterns := patterns ++ text.splitOn '\n'
        else match ← inputOf text with
          | .ok data => patterns := patterns ++ textLines data
          | .error fault => giveUp self 2 s!"{shown text}: {fault.reason}"
      pure (patterns, operands)
  let kind := (g.last? "EFGP").getD 'G'
  let regexes ← patterns.mapM fun pattern =>
    if kind = 'F' then pure (Regex.ofFixed pattern)
    else match Regex.ofText (kind ≠ 'G') (if kind = 'P' then withDigits pattern else pattern) with
      | .ok r => pure r
      | .error message => giveUp self 2 message
  let number (letter : Char) : Eval (Option Nat) := do
    match g.argument? letter with
    | none => return none
    | some text =>
      match wholeNumber? text with
      | some n => return some n.toNat
      | none => giveUp self 2 (if letter = 'm' then "invalid max count" else s!"{shown text}: invalid context length argument")
  let context ← number 'C'
  let isRecursive := g.has "rR"
  let fs ← getFiles
  let operands := if operands = [] then [if isRecursive then ['.'] else ['-']] else operands
  let search : Search := {
    self
    regexes
    accepts := if g.has "x" then Regex.isWholeLine else if g.has "w" then Regex.isWholeWord else fun _ _ => true
    mode := { ignoresCase := g.has "i" }
    inverted := g.has "v"
    given := g
    showsNames := match g.last? "hH" with
      | some letter => letter = 'H'
      | none => operands.length > 1 || isRecursive
    limit := ← number 'm'
    before := ((← number 'B').orElse fun _ => context).getD 0
    after := ((← number 'A').orElse fun _ => context).getD 0 }
  let names := operands.flatMap fun name =>
    match (fs.locate .use (pathOf name)).toOption with
    | some l => if isRecursive ∧ fs.isDirectoryAt l then filesBelow fs (fs.nodes.length + 1) name l else [name]
    | none => [name]
  let mut isFound := false
  let mut hasFailed := false
  for name in names do
    let result ← inputOf name
    match result with
    | .ok data =>
      if ← search.inText (if isStandardInput name then "(standard input)".toList else name) data then isFound := true
    | .error fault =>
      unless g.has "s" do complain self s!"{shown name}: {fault.reason}"
      hasFailed := true
  setStatus (if isFound ∧ (g.has "q" ∨ ¬ hasFailed) then 0 else if hasFailed then 2 else 1)
where
  longHelp : String := "-" ++ "-help' for more information.\n"
  /-- A number alone is a context. -/
  oldContext (arguments : List Text) : List Text :=
    arguments.map fun word => match word with
      | '-' :: digit :: digits =>
        if (digit :: digits).all Char.isDigit then '-' :: 'C' :: digit :: digits else word
      | word => word

/-- The same with a notation for what is looked for. -/
def showMatchesOf (letter : Char) : Utility := fun _ arguments =>
  showMatches "grep".toList (['-', letter] :: arguments)

end Unjar.Shell
