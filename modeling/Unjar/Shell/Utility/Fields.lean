import Unjar.Shell.Regex.Reader
import Unjar.Shell.Utility.Showing

/-!
Programs that rearrange lines, and the fields and characters in them.
-/

namespace Unjar.Shell

/-- A list of places, such as `1,3-5,7-`: first and last ones. -/
def placesOfText? (text : Text) : Option (List (Nat × Option Nat)) :=
  (text.splitOn ',').mapM fun part =>
    let first := part.takeWhile Char.isDigit
    match part.drop first.length with
    | [] => if first = [] ∨ valueIn 10 first = 0 then none else some (valueIn 10 first, some (valueIn 10 first))
    | '-' :: last =>
      if ¬ last.all Char.isDigit ∨ (first = [] ∧ last = []) then none
      else
        let start := if first = [] then 1 else valueIn 10 first
        if start = 0 then none
        else if last = [] then some (start, none)
        else if valueIn 10 last < start then none else some (start, some (valueIn 10 last))
    | _ => none

/-- What is wrong with a list of places. -/
def placesFault (areFields : Bool) (text : Text) : String :=
  let numbered := if areFields then "fields are numbered from 1" else "byte/character positions are numbered from 1"
  let rest := text.dropWhile fun c => c.isDigit ∨ c = '-' ∨ c = ','
  if rest ≠ [] then
    (if areFields then "invalid field value " else "invalid byte/character position ") ++ quoted rest
  else if (text.splitOn ',').any fun part => part.all (· = '0') then numbered
  else if (text.splitOn ',').contains ['-'] then "invalid range with no endpoint: -"
  else if (text.splitOn ',').any fun part => 1 < part.count '-' then
    if areFields then "invalid field range" else "invalid byte or character range"
  else if (text.splitOn ',').any fun part => (part.takeWhile (· ≠ '-')).all (· = '0') && part.head? ≠ some '-' then numbered
  else "invalid decreasing range"

def isListed (places : List (Nat × Option Nat)) (place : Nat) : Bool :=
  places.any fun (first, last) => first ≤ place && last.all (place ≤ ·)

def cutGrammar : Grammar where
  letters := "b:c:f:d:nsCo:z"
  names := [("bytes", 'b'), ("characters", 'c'), ("fields", 'f'), ("delimiter", 'd'), ("only-delimited", 's'),
    ("complement", 'C'), ("output-delimiter", 'o')]

def cutFields : Utility := fun self arguments => do
  let g ← cutGrammar.read self arguments
  let lists := g.options.filter fun option => "bcf".toList.contains option.1
  let (kind, text) ← match lists with
    | [] => misused self 1 "you must specify a list of bytes, characters, or fields"
    | [list] => pure list
    | _ => misused self 1 "only one list may be specified"
  let places ← match placesOfText? text with
    | some places => pure places
    | none => misused self 1 (placesFault (kind = 'f') text)
  let delimiter ← match g.argument? 'd' with
    | none => pure '\t'
    | some [c] => pure c
    | some [] => pure '\x00'
    | some _ => misused self 1 "the delimiter must be a single character"
  let isKept (place : Nat) : Bool := isListed places place != g.has "C"
  let keep {α : Type} (parts : List α) : List α :=
    ((List.range parts.length).zip parts).filterMap fun (n, part) => if isKept (n + 1) then some part else none
  forInputs self g.operands nameAndReason fun _ data => do
    for line in textLines data do
      if kind = 'f' then
        let fields := line.splitOn delimiter
        if fields.length = 1 then
          unless g.has "s" do emitLine self line
        else emitLine self (List.intercalate ((g.argument? 'o').getD [delimiter]) (keep fields))
      else emitLine self (keep line)

def pasteGrammar : Grammar where
  letters := "sd:z"
  names := [("serial", 's'), ("delimiters", 'd')]

/-- What stands between the lines that are put together, in turn. -/
def pasteSigns (text : Text) : List Text :=
  match text with
  | [] => []
  | '\\' :: c :: rest =>
    (match c with
      | 'n' => ['\n']
      | 't' => ['\t']
      | '0' => []
      | c => [c]) :: pasteSigns rest
  | c :: rest => [c] :: pasteSigns rest

/-- Parts with signs between them, which are used in turn. -/
def joinInTurn (signs : List Text) (parts : List Text) : Text :=
  match parts with
  | [] => []
  | first :: rest =>
    let sign (n : Nat) : Text := (signs[n % signs.length]?).getD []
    first ++ ((List.range rest.length).zip rest).flatMap fun (n, part) => sign n ++ part

def pasteLines : Utility := fun self arguments => do
  let g ← pasteGrammar.read self arguments
  let signs := pasteSigns ((g.argument? 'd').getD ['\t'])
  let signs := if signs = [] then [[]] else signs
  let names := inputsOf g.operands
  let mut columns := []
  let standard ← if names.contains ['-'] then readAll 0 else pure (.ok [])
  let shared := textLines (standard.toOption.getD [])
  let dashes := names.countP isStandardInput
  let mut dash := 0
  for name in names do
    if isStandardInput name then
      let own := ((List.range shared.length).zip shared).filterMap fun (n, line) =>
        if n % dashes = dash then some line else none
      columns := columns ++ [if g.has "s" then (if dash = 0 then shared else []) else own]
      dash := dash + 1
    else match ← inputOf name with
      | .ok data => columns := columns ++ [textLines data]
      | .error fault => giveUp self 1 s!"{nameText name}: {fault.reason}"
  if g.has "s" then for column in columns do emitLine self (joinInTurn signs column)
  else
    let height := (columns.map List.length).foldl max 0
    for row in List.range height do
      emitLine self (joinInTurn signs (columns.map fun column => (column[row]?).getD []))

def reverseLines : Utility := fun self arguments => do
  let g ← ({ letters := "brs:" } : Grammar).read self arguments
  forInputs self g.operands (fun name reason => s!"failed to open {quoted name} for reading: {reason}") fun _ data =>
    emit self (fullLines data).reverse.flatten

def reverseChars : Utility := fun self arguments => do
  let g ← ({ letters := "" } : Grammar).read self arguments
  forInputs self g.operands (fun name reason => s!"cannot open {shown name}: {reason}") fun _ data =>
    emit self ((fullLines data).flatMap fun line =>
      if line.getLast? = some 0x0A then line.dropLast.reverse ++ [0x0A] else line.reverse)

/-- A line in pieces of so many characters at most. -/
def wrapped (width : Nat) (atBlanks : Bool) : Nat → Text → List Text
  | 0, line => [line]
  | fuel + 1, line =>
    if line.length ≤ width ∨ width = 0 then [line]
    else
      let front := line.take width
      let blank := (front.reverse.dropWhile (¬ isBlank ·)).length
      let size := if atBlanks ∧ blank > 0 then blank else width
      line.take size :: wrapped width atBlanks fuel (line.drop size)

def foldLines : Utility := fun self arguments => do
  let g ← ({ letters := "bsw:", names := [("width", 'w'), ("spaces", 's'), ("bytes", 'b')] } : Grammar).read self arguments
  let width := (g.argument? 'w').elim 80 (valueIn 10)
  forInputs self g.operands nameAndReason fun _ data =>
    for line in fullLines data do
      let text := ofOctets line
      let body := text.filter (· ≠ '\n')
      let pieces := List.intercalate ['\n'] (wrapped width (g.has "s") (body.length + 1) body)
      emit self (toOctets (if text.getLast? = some '\n' then pieces ++ ['\n'] else pieces))

def numberGrammar : Grammar where
  letters := "b:h:f:v:i:w:s:n:pl:d:"
  names := [("body-numbering", 'b'), ("starting-line-number", 'v'), ("line-increment", 'i'), ("number-width", 'w'),
    ("number-separator", 's'), ("number-format", 'n')]

def numberLines : Utility := fun self arguments => do
  let g ← numberGrammar.read self arguments
  let style := (g.argument? 'b').getD ['t']
  let number (letter : Char) (default : Int) : Int := ((g.argument? letter).bind wholeNumber?).getD default
  let width := (number 'w' 6).toNat
  let separator := (g.argument? 's').getD ['\t']
  let shape (n : Int) : Text :=
    let digits := signedDecimalOf n
    let gap := width - digits.length
    match shown ((g.argument? 'n').getD "rn".toList) with
    | "ln" => digits ++ List.replicate gap ' '
    | "rz" => List.replicate gap '0' ++ digits
    | _ => List.replicate gap ' ' ++ digits
  let isNumbered (line : Text) : Bool :=
    match style with
    | ['a'] => true
    | ['n'] => false
    | 'p' :: pattern => (Regex.ofText false pattern).toOption.any fun r => r.isFoundIn {} line
    | _ => line ≠ []
  let mut n := number 'v' 1
  for name in inputsOf g.operands do
    match ← inputOf name with
    | .error fault => fails self s!"{nameText name}: {fault.reason}"
    | .ok data =>
      for line in textLines data do
        if isNumbered line then
          emitLine self (shape n ++ separator ++ line)
          n := n + number 'i' 1
        else emitLine self (List.replicate (width + separator.length) ' ' ++ line)

/-- A character that may be written behind a backslash. -/
def setChar (c : Char) (rest : Text) : Char × Text :=
  if c ≠ '\\' then (c, rest)
  else match rest with
    | [] => (c, rest)
    | d :: after =>
      match d with
      | 'n' => ('\n', after)
      | 't' => ('\t', after)
      | 'r' => ('\r', after)
      | 'a' => ('\x07', after)
      | 'b' => ('\x08', after)
      | 'f' => ('\x0c', after)
      | 'v' => ('\x0b', after)
      | d =>
        let digits := ((d :: after).take 3).takeWhile (isDigitIn 8)
        if digits = [] then (d, after) else (Char.ofNat (valueIn 8 digits), (d :: after).drop digits.length)

/-- The characters that a set is written with. -/
inductive SetItem where
  | char (c : Char)
  | ofClass (k : CharClass)
  /-- A character so many times, or as often as is needed. -/
  | times (c : Char) (count : Nat)

/-- A character with how often it stands there, as in `[x*3]`. -/
def timesAtFront? (text : Text) : Option (SetItem × Text) :=
  match text with
  | '[' :: c :: rest =>
    let (c, rest) := setChar c rest
    match rest with
    | '*' :: rest =>
      let digits := rest.takeWhile Char.isDigit
      let base := if digits.head? = some '0' then 8 else 10
      match rest.drop digits.length with
      | ']' :: after => some (.times c (valueIn base digits), after)
      | _ => none
    | _ => none
  | _ => none

/-- The characters of a set as it is written, such as `a-z` or `[:digit:]`. -/
def setItems : Nat → Text → List SetItem
  | 0, _ | _, [] => []
  | fuel + 1, c :: rest =>
    match if c = '[' then CharClass.atFront? rest else none with
    | some (k, rest) => .ofClass k :: setItems fuel rest
    | none =>
      match timesAtFront? (c :: rest), c, rest with
      | some (item, rest), _, _ => item :: setItems fuel rest
      | none, '[', '=' :: same :: '=' :: ']' :: rest => .char same :: setItems fuel rest
      | none, c, rest =>
        let (first, rest) := setChar c rest
        match rest with
        | '-' :: last :: after =>
          let (last, after) := setChar last after
          let range := (List.range (last.toNat + 1 - first.toNat)).map fun n => SetItem.char (Char.ofNat (first.toNat + n))
          range ++ setItems fuel after
        | rest => .char first :: setItems fuel rest

def octetChars : Text := (List.range 256).map Char.ofNat

/-- The characters of a set that is to have a size if possible. -/
def setChars (size : Nat) (items : List SetItem) : Text :=
  let fixed := items.foldl (fun soFar item => match item with
    | .char _ => soFar + 1
    | .ofClass k => soFar + octetChars.countP k.contains
    | .times _ count => soFar + count) 0
  items.flatMap fun item => match item with
    | .char c => [c]
    | .ofClass k => octetChars.filter k.contains
    | .times c count => List.replicate (if count = 0 then size - fixed else count) c

def translationGrammar : Grammar where
  letters := "cCdst"
  names := [("complement", 'c'), ("delete", 'd'), ("squeeze-repeats", 's'), ("truncate-set1", 't')]
  inOrder := true

/-- One of each run of a listed character. -/
def squeezed (listed : Char → Bool) : Text → Text
  | a :: b :: rest => if a = b ∧ listed a then squeezed listed (a :: rest) else a :: squeezed listed (b :: rest)
  | text => text

/-- The pairs of two sets; a short second one is filled up with its last character. -/
def translationPairs (truncates : Bool) (first second : Text) : List (Char × Char) :=
  let filled := if truncates then second
    else second ++ List.replicate (first.length - second.length) ((second.getLast?).getD ' ')
  (first.zip filled).reverse

def translate : Utility := fun self arguments => do
  let g ← translationGrammar.read self arguments
  let complemented (set : Text) : Text := if g.has "cC" then octetChars.filter (¬ set.contains ·) else set
  let itemsOf (text : Text) : List SetItem := setItems (text.length + 1) text
  let sets := match g.operands with
    | [] => []
    | first :: others =>
      let first := setChars 0 (itemsOf first)
      first :: others.map fun text => setChars (complemented first).length (itemsOf text)
  let data ← match ← readAll 0 with
    | .ok data => pure data
    | .error fault => giveUp self 1 s!"read error: {fault.reason}"
  let text := ofOctets data
  let result ← match sets, g.has "d", g.has "s" with
    | [], _, _ => missingOperand self
    | [set], true, false => pure (text.filter (¬ (complemented set).contains ·))
    | [set], false, true => pure (squeezed (complemented set).contains text)
    | [set, other], true, true =>
      pure (squeezed other.contains (text.filter (¬ (complemented set).contains ·)))
    | [set, other], false, squeezes =>
      if other = [] then giveUp self 1 "when not truncating set1, string2 must be non-empty"
      let pairs := translationPairs (g.has "t") (complemented set) other
      let changed := text.map fun c => (pairs.lookup c).getD c
      pure (if squeezes then squeezed other.contains changed else changed)
    | [_], _, _ =>
      let what := if g.has "d" then "Two strings must be given when both deleting and squeezing repeats."
        else "Two strings must be given when translating."
      misused self 1 s!"missing operand after {quoted (g.operands.headD [])}\n{what}"
    | _, true, false =>
      misused self 1 (s!"extra operand {quoted ((g.operands.drop 1).headD [])}\n" ++
        "Only one string may be given when deleting without squeezing repeats.")
    | _, _, _ => misused self 1 s!"extra operand {quoted ((g.operands.drop 2).headD [])}"
  emit self (toOctets result)

end Unjar.Shell
