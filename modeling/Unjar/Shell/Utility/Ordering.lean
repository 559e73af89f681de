import Unjar.Shell.Utility.Showing

/-!
Programs that order lines, and that compare lines in order.
-/

namespace Unjar.Shell

/-- How keys are compared. -/
structure KeyOrder where
  numeric : Bool := false
  backwards : Bool := false
  foldsCase : Bool := false
  skipsBlanks : Bool := false
  dictionary : Bool := false
  human : Bool := false
  versions : Bool := false

namespace KeyOrder

def withLetter (k : KeyOrder) : Char → KeyOrder
  | 'n' | 'g' => { k with numeric := true }
  | 'r' => { k with backwards := true }
  | 'f' => { k with foldsCase := true }
  | 'b' => { k with skipsBlanks := true }
  | 'd' => { k with dictionary := true }
  | 'h' => { k with human := true }
  | 'V' => { k with versions := true }
  | _ => k

/-- A number at the front: whether it is below zero, its whole part without zeros in front, and its places. -/
def numberAtFront (text : Text) : Bool × Text × Text :=
  let text := text.dropWhile isBlank
  let negative := text.head? = some '-'
  let text := if negative then text.tail else text
  let whole := text.takeWhile Char.isDigit
  let rest := text.drop whole.length
  let places := if rest.head? = some '.' then rest.tail.takeWhile Char.isDigit else []
  (negative, whole.dropWhile (· = '0'), (places.reverse.dropWhile (· = '0')).reverse)

/-- The place of a unit such as `K` behind a number. -/
def unitPlace (text : Text) : Nat :=
  let text := text.dropWhile fun c => isBlank c ∨ c = '-'
  match (text.dropWhile fun c => c.isDigit ∨ c = '.').head? with
  | some c => ("KMGTPEZY".toList.takeWhile (· ≠ c.toUpper)).length % 8 + (if "KMGTPEZYk".toList.contains c then 1 else 0)
  | none => 0

def compareTexts : Text → Text → Ordering
  | [], [] => .eq
  | [], _ => .lt
  | _, [] => .gt
  | a :: as, b :: bs => if a = b then compareTexts as bs else if a < b then .lt else .gt

def compareNumbers (a b : Text) : Ordering :=
  let (an, aw, ap) := numberAtFront a
  let (bn, bw, bp) := numberAtFront b
  let isZero (whole places : Text) : Bool := whole = [] ∧ places = []
  let an := an && !isZero aw ap
  let bn := bn && !isZero bw bp
  let sizes : Ordering :=
    if aw.length ≠ bw.length then (if aw.length < bw.length then .lt else .gt)
    else (compareTexts aw bw).then (compareTexts ap bp)
  match an, bn with
  | true, false => .lt
  | false, true => .gt
  | true, true => sizes.swap
  | false, false => sizes

/-- Digits are compared as numbers, and what is between them as text. -/
def compareVersions : Nat → Text → Text → Ordering
  | 0, _, _ => .eq
  | _, [], [] => .eq
  | fuel + 1, a, b =>
    let at' := a.takeWhile (¬ Char.isDigit ·)
    let bt := b.takeWhile (¬ Char.isDigit ·)
    let ad := (a.drop at'.length).takeWhile Char.isDigit
    let bd := (b.drop bt.length).takeWhile Char.isDigit
    ((compareTexts at' bt).then (compare (valueIn 10 ad) (valueIn 10 bd))).then
      (compareVersions fuel (a.drop (at'.length + ad.length)) (b.drop (bt.length + bd.length)))

def compareKeys (k : KeyOrder) (a b : Text) : Ordering :=
  let prepared (text : Text) : Text :=
    let text := if k.skipsBlanks then text.dropWhile isBlank else text
    let text := if k.dictionary then text.filter fun c => c.isAlphanum ∨ isBlank c else text
    if k.foldsCase then text.map Char.toUpper else text
  let forwards :=
    if k.human then (compare (unitPlace a) (unitPlace b)).then (compareNumbers a b)
    else if k.numeric then compareNumbers a b
    else if k.versions then compareVersions (a.length + b.length + 1) (prepared a) (prepared b)
    else compareTexts (prepared a) (prepared b)
  if k.backwards then forwards.swap else forwards

end KeyOrder

/-- A part of a line: from a field and a character in it to others. -/
structure SortKey where
  startField : Nat
  startChar : Nat
  endField : Option Nat
  endChar : Nat
  order : KeyOrder

namespace SortKey

/-- Where a field starts, without a separator the blanks in front of it being part of it. -/
def fieldStart (separator : Option Char) : Nat → Text → Nat
  | 0, _ => 0
  | field + 1, text =>
    let width := match separator with
      | some c =>
        let front := text.takeWhile (· ≠ c)
        front.length + 1
      | none =>
        let blanks := text.takeWhile isBlank
        blanks.length + ((text.drop blanks.length).takeWhile (¬ isBlank ·)).length
    width + fieldStart separator field (text.drop width)

def keyOf (separator : Option Char) (k : SortKey) (line : Text) : Text :=
  let blanksAt (place : Nat) : Nat :=
    if k.order.skipsBlanks then ((line.drop place).takeWhile isBlank).length else 0
  let start := fieldStart separator (k.startField - 1) line
  let start := start + blanksAt start + (k.startChar - 1)
  let stop := match k.endField with
    | none => line.length
    | some field =>
      if k.endChar = 0 then
        let next := fieldStart separator field line
        if separator.isSome then next - 1 else next
      else
        let first := fieldStart separator (field - 1) line
        first + blanksAt first + k.endChar
  (line.take (min stop line.length)).drop start

/-- A key as it is written, such as `2,3n`. -/
def ofText? (whole : KeyOrder) (text : Text) : Option SortKey :=
  let place (text : Text) : Nat × Option Nat × Text × Text :=
    let field := text.takeWhile Char.isDigit
    let rest := text.drop field.length
    let (char, rest) := match rest with
      | '.' :: rest => (some (valueIn 10 (rest.takeWhile Char.isDigit)), rest.dropWhile Char.isDigit)
      | rest => (none, rest)
    let letters := rest.takeWhile Char.isAlpha
    (valueIn 10 field, char, letters, rest.drop letters.length)
  let (field, char, letters, rest) := place text
  if field = 0 then none
  else
    let orderOf (letters : Text) : KeyOrder :=
      if letters = [] then whole else letters.foldl KeyOrder.withLetter {}
    match rest with
    | [] => some { startField := field, startChar := char.getD 1, endField := none, endChar := 0, order := orderOf letters }
    | ',' :: rest =>
      let (last, lastChar, more, rest) := place rest
      if last = 0 ∨ rest ≠ [] then none
      else some {
        startField := field, startChar := char.getD 1, endField := some last, endChar := lastChar.getD 0
        order := orderOf (letters ++ more) }
    | _ => none

end SortKey

def sortGrammar : Grammar where
  letters := "bdfgnrhVuk:t:o:smcCzS:T:"
  names := [("numeric-sort", 'n'), ("reverse", 'r'), ("unique", 'u'), ("key", 'k'), ("field-separator", 't'),
    ("ignore-case", 'f'), ("output", 'o'), ("stable", 's'), ("check", 'c'), ("merge", 'm'), ("version-sort", 'V'),
    ("human-numeric-sort", 'h'), ("ignore-leading-blanks", 'b'), ("dictionary-order", 'd')]
  status := 2

/-- The first of each run of lines that count as equal. -/
def firstsOf (same : Text → Text → Bool) : List Text → List Text
  | a :: b :: rest => if same a b then firstsOf same (a :: rest) else a :: firstsOf same (b :: rest)
  | lines => lines

def sortLines : Utility := fun self arguments => do
  let g ← sortGrammar.read self arguments
  let whole := (g.options.map Prod.fst).foldl KeyOrder.withLetter {}
  let separator ← match g.argument? 't' with
    | none => pure none
    | some [c] => pure (some c)
    | some text =>
      if text = "\\0".toList then pure (some '\x00')
      else if text = [] then giveUp self 2 "empty tab"
      else giveUp self 2 s!"multi-character tab {quoted text}"
  let keys ← (g.options.filter (·.1 = 'k')).mapM fun option =>
    match SortKey.ofText? { whole with backwards := whole.backwards } option.2 with
    | some key => pure key
    | none => giveUp self 2 s!"invalid field specification {quoted option.2}"
  let mut lines := []
  for name in inputsOf g.operands do
    match ← inputOf name with
    | .ok data => lines := lines ++ textLines data
    | .error fault =>
      let verb := if fault = .isADirectory then "read failed" else "cannot read"
      giveUp self 2 s!"{verb}: {nameText name}: {fault.reason}"
  let byKeys (a b : Text) : Ordering :=
    if keys = [] then whole.compareKeys a b
    else keys.foldl (fun result key =>
      result.then (key.order.compareKeys (key.keyOf separator a) (key.keyOf separator b))) .eq
  let lastResort (a b : Text) : Ordering :=
    if g.has "su" then .eq
    else if whole.backwards then (KeyOrder.compareTexts a b).swap else KeyOrder.compareTexts a b
  let order (a b : Text) : Ordering := (byKeys a b).then (lastResort a b)
  if g.has "cC" then
    let strict := g.has "u"
    let disorder := ((List.range lines.length).zip (lines.zip lines.tail)).find? fun (_, a, b) =>
      order a b = .gt || (strict && byKeys a b = .eq)
    match disorder with
    | some (n, _, line) =>
      if g.has "c" then
        let source := shown (g.operands.headD ['-'])
        complain self s!"{source}:{n + 2}: disorder: {shown line}"
      setStatus 1
    | none => return
  else
    let sorted := lines.mergeSort fun a b => order a b ≠ .gt
    let result := if g.has "u" then firstsOf (fun a b => byKeys a b = .eq) sorted else sorted
    let data := toOctets (result.flatMap (· ++ ['\n']))
    match g.argument? 'o' with
    | none => emit self data
    | some name =>
      match Permission.write (← getFiles) (← getProcess).mask (pathOf name) data with
      | .ok files => setFiles files
      | .error fault => giveUp self 2 s!"open failed: {nameText name}: {fault.reason}"

def uniqueGrammar : Grammar where
  letters := "cdDuif:s:w:z"
  names := [("count", 'c'), ("repeated", 'd'), ("unique", 'u'), ("ignore-case", 'i'), ("skip-fields", 'f'),
    ("skip-chars", 's'), ("check-chars", 'w')]

/-- Runs of lines that count as equal, each with its first line. -/
def runsOf (same : Text → Text → Bool) (lines : List Text) : List (Text × Nat) :=
  (lines.foldl (fun (runs : List (Text × Nat)) line =>
    match runs with
    | (first, count) :: before => if same first line then (first, count + 1) :: before else (line, 1) :: runs
    | [] => [(line, 1)]) []).reverse

def dropField (line : Text) : Text := (line.dropWhile isBlank).dropWhile (¬ isBlank ·)

def showUnique : Utility := fun self arguments => do
  let g ← uniqueGrammar.read self arguments
  let number (letter : Char) : Nat := (g.argument? letter).elim 0 (valueIn 10)
  let compared (line : Text) : Text :=
    let line := (List.range (number 'f')).foldl (fun line _ => dropField line) line
    let line := line.drop (number 's')
    let line := if (g.argument? 'w').isSome then line.take (number 'w') else line
    if g.has "i" then line.map Char.toLower else line
  let name := g.operands.headD ['-']
  match ← inputOf name with
  | .error fault => giveUp self 1 s!"{nameText name}: {fault.reason}"
  | .ok data =>
    let runs := runsOf (fun a b => compared a = compared b) (textLines data)
    let kept := runs.filter fun run => (¬ g.has "d" ∨ run.2 > 1) ∧ (¬ g.has "u" ∨ run.2 = 1)
    let line (run : Text × Nat) : Text :=
      let count := decimalOf run.2
      (if g.has "c" then List.replicate (7 - count.length) ' ' ++ count ++ [' '] else []) ++ run.1 ++ ['\n']
    let output := toOctets (kept.flatMap line)
    match g.operands with
    | _ :: target :: _ =>
      match Permission.write (← getFiles) (← getProcess).mask (pathOf target) output with
      | .ok files => setFiles files
      | .error fault => giveUp self 1 s!"{shown target}: {fault.reason}"
    | _ => emit self output

/-- Lines of two ordered inputs: those that only the first has, only the second, and both. -/
def mergeColumns (a b : List Text) : Nat → List (Nat × Text)
  | 0 => []
  | fuel + 1 =>
    match a, b with
    | [], [] => []
    | x :: xs, [] => (1, x) :: mergeColumns xs [] fuel
    | [], y :: ys => (2, y) :: mergeColumns [] ys fuel
    | x :: xs, y :: ys =>
      match KeyOrder.compareTexts x y with
      | .lt => (1, x) :: mergeColumns xs b fuel
      | .gt => (2, y) :: mergeColumns a ys fuel
      | .eq => (3, x) :: mergeColumns xs ys fuel

def compareColumns : Utility := fun self arguments => do
  let g ← ({ letters := "123z" } : Grammar).read self arguments
  match g.operands with
  | [a, b] =>
    let linesIn (name : Text) : Eval (List Text) := do
      match ← inputOf name with
      | .ok data => return textLines data
      | .error fault => giveUp self 1 s!"{nameText name}: {fault.reason}"
    let (first, second) := (← linesIn a, ← linesIn b)
    let hides (column : Nat) : Bool := g.has (toString column)
    for (column, line) in mergeColumns first second (first.length + second.length + 1) do
      unless hides column do
        let tabs := (List.range column).countP fun before => before ≠ 0 ∧ ¬ hides before
        emitLine self (List.replicate tabs '\t' ++ line)
  | [] => missingOperand self
  | name :: _ => misused self 1 s!"missing operand after {quoted name}"

/-- The first place where two inputs differ. -/
def firstDifference : Nat → Nat → Bytes → Bytes → Option (Nat × Nat)
  | _, _, [], _ | _, _, _, [] => none
  | place, line, a :: as, b :: bs =>
    if a ≠ b then some (place, line) else firstDifference (place + 1) (if a = 0x0A then line + 1 else line) as bs

def compareOctets : Utility := fun self arguments => do
  let g ← ({ letters := "bsln:i:", names := [("quiet", 's'), ("silent", 's')], status := 2 } : Grammar).read self arguments
  let name (n : Nat) : Text := (g.operands[n]?).getD ['-']
  if g.operands = [] then misused self 2 s!"missing operand after {quoted self}"
  let read (name : Text) : Eval Bytes := do
    match ← inputOf name with
    | .ok data => return data
    | .error fault =>
      unless g.has "s" do complain self s!"{shown name}: {fault.reason}"
      throw (.exit 2)
  let a ← read (name 0)
  let b ← read (name 1)
  if a = b then return
  setStatus 1
  let octal (octet : UInt8) : Text := (Nat.toDigits 8 octet.toNat).leftpad 3 ' '
  if g.has "l" then
    let width := (decimalOf (min a.length b.length)).length
    for (n, x, y) in (List.range a.length).zip (a.zip b) do
      if x ≠ y then emitLine self ((decimalOf (n + 1)).leftpad width ' ' ++ ' ' :: octal x ++ ' ' :: octal y)
  unless g.has "s" do
    match if g.has "l" then none else firstDifference 1 1 a b with
    | some (place, line) =>
      emitLine self s!"{shown (name 0)} {shown (name 1)} differ: char {place}, line {line}".toList
    | none =>
      if a.length = b.length then return
      let (shorter, size, data) := if a.length < b.length then (name 0, a.length, a) else (name 1, b.length, b)
      let lines := data.count 0x0A
      if size = 0 then complain self s!"EOF on {shown shorter} which is empty"
      else
        let lineText := if data.getLast? = some 0x0A then s!"line {lines}" else s!"in line {lines + 1}"
        complain self s!"EOF on {shown shorter} after byte {size}, {lineText}"

end Unjar.Shell
