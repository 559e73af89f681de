import Unjar.Shell.Format
import Unjar.Shell.Utility.Basic

/-!
Programs that show what files hold, or a part of it.
-/

namespace Unjar.Shell

/-- Does something with every input, and complains of those that cannot be read. -/
def forInputs (self : Text) (operands : List Text) (complaint : Text → String → String)
    (act : Text → Bytes → Eval Unit) : Eval Unit := do
  for name in inputsOf operands do
    match ← inputOf name with
    | .ok data => act name data
    | .error fault => fails self (complaint (if isStandardInput name then "standard input".toList else name) fault.reason)

def nameAndReason (name : Text) (reason : String) : String := s!"{nameText name}: {reason}"

def inputName (name : Text) : Text := if isStandardInput name then "standard input".toList else name

/-- What `cat` shows of a line besides its characters. -/
structure LineStyle where
  numbersAll : Bool := false
  numbersFilled : Bool := false
  showsEnds : Bool := false
  showsTabs : Bool := false
  showsOthers : Bool := false
  squeezes : Bool := false

namespace LineStyle

def isPlain (s : LineStyle) : Bool :=
  !(s.numbersAll || s.numbersFilled || s.showsEnds || s.showsTabs || s.showsOthers || s.squeezes)

/-- A character that cannot be seen, in characters that can be. -/
def visible (s : LineStyle) (c : Char) : Text :=
  let low (n : Nat) : Text :=
    if n < 32 then ['^', Char.ofNat (n + 64)] else if n = 127 then ['^', '?'] else [Char.ofNat n]
  if c = '\t' then if s.showsTabs then ['^', 'I'] else [c]
  else if ¬ s.showsOthers then [c]
  else if c.toNat < 128 then low c.toNat
  else 'M' :: '-' :: low (c.toNat - 128)

def numbered (n : Nat) : Text :=
  let digits := decimalOf n
  List.replicate (6 - digits.length) ' ' ++ digits ++ ['\t']

/-- Lines in a style, behind a number of lines. -/
def rendered (s : LineStyle) (count : Nat) (afterEmpty : Bool) : List Text → Text × Nat
  | [] => ([], count)
  | line :: rest =>
    let body := line.filter (· ≠ '\n')
    let isEmpty := body = []
    if s.squeezes ∧ isEmpty ∧ afterEmpty then rendered s count true rest
    else
      let isNumbered := (s.numbersFilled ∧ ¬ isEmpty) ∨ (s.numbersAll ∧ ¬ s.numbersFilled)
      let count := if isNumbered then count + 1 else count
      let ending := if line.getLast? = some '\n' then (if s.showsEnds then ['$', '\n'] else ['\n']) else []
      let (more, last) := rendered s count isEmpty rest
      ((if isNumbered then numbered count else []) ++ body.flatMap s.visible ++ ending ++ more, last)

end LineStyle

def catGrammar : Grammar where
  letters := "AbeEnstTuv"
  names := [("number", 'n'), ("number-nonblank", 'b'), ("show-ends", 'E'), ("show-tabs", 'T'), ("show-all", 'A'),
    ("squeeze-blank", 's'), ("show-nonprinting", 'v')]

/-- Whether an operand is the file that is being written. -/
def isBeingWritten (name : Text) : Eval Bool := do
  let source ← if isStandardInput name then do pure ((← fileOf 0).map fun file => file.2.channel)
    else do pure (((← getFiles).locate .use (pathOf name)).toOption.map Channel.file)
  match ← fileOf 1 with
  | some (_, { channel := .file l, position, appends, .. }) =>
    let size := (((← getFiles).contents l).toOption.getD []).length
    return source = some (.file l) && 0 < (if appends then size else position)
  | _ => return false

def concatenate : Utility := fun self arguments => do
  let g ← catGrammar.read self arguments
  let style : LineStyle := {
    numbersAll := g.has "n"
    numbersFilled := g.has "b"
    showsEnds := g.has "AeE"
    showsTabs := g.has "AtT"
    showsOthers := g.has "Aetv"
    squeezes := g.has "s" }
  let mut count := 0
  for name in inputsOf g.operands do
    let isBeingWritten ← isBeingWritten name
    match ← inputOf name with
    | .error fault => fails self (nameAndReason name fault.reason)
    | .ok data =>
      if isBeingWritten then fails self s!"{nameText name}: input file is output file"
      else if style.isPlain then emit self data
      else
        let (text, last) := style.rendered count false ((fullLines data).map ofOctets)
        count := last
        emit self (toOctets text)

/-- A number with a letter that multiplies it. -/
def multiplied? (text : Text) : Option Nat :=
  let digits := text.takeWhile Char.isDigit
  let factor? : Option Nat := match shown (text.drop digits.length) with
    | "" => some 1
    | "b" => some 512
    | "k" | "K" | "KiB" => some 1024
    | "kB" | "KB" => some 1000
    | "m" | "M" | "MiB" => some 1048576
    | "MB" => some 1000000
    | _ => none
  if digits = [] then none else factor?.map fun factor => valueIn 10 digits * factor

/-- How much is shown: lines or octets, so many of them, or all but so many, or all from one on. -/
structure Amount where
  inOctets : Bool := false
  sign : Option Char := none
  count : Nat := 10

def Amount.ofText (self : Text) (inOctets : Bool) (text : Text) : Eval Amount := do
  let sign := text.head?.filter "+-".toList.contains
  match multiplied? (if sign.isSome then text.tail else text) with
  | some count => return { inOctets, sign, count }
  | none =>
    let units := if inOctets then "bytes" else "lines"
    giveUp self 1 s!"invalid number of {units}: {quoted text}"

/-- The old way to write an amount: a sign and a number in the first word. -/
def oldAmount (signs : String) (arguments : List Text) : List Text :=
  match arguments with
  | (sign :: digit :: more) :: rest =>
    if signs.toList.contains sign ∧ digit.isDigit then
      let digits := (digit :: more).takeWhile Char.isDigit
      let value := if sign = '+' then sign :: digits else digits
      match (digit :: more).drop digits.length with
      | ['c'] => ['-', 'c'] :: value :: rest
      | _ => ['-', 'n'] :: value :: rest
    else arguments
  | _ => arguments

def partGrammar : Grammar where
  letters := "n:c:qvzfF"
  names := [("lines", 'n'), ("bytes", 'c'), ("quiet", 'q'), ("silent", 'q'), ("verbose", 'v')]

def amountOf (self : Text) (g : Given) : Eval Amount := do
  match g.options.reverse.find? fun option => option.1 = 'n' ∨ option.1 = 'c' with
  | some (letter, text) => Amount.ofText self (letter = 'c') text
  | none => return {}

/-- A line that names a file in front of its content. -/
def heading (isFirst : Bool) (name : Text) : Text :=
  (if isFirst then [] else ['\n']) ++ s!"==> {shown (inputName name)} <==\n".toList

/-- The first part of some data. -/
def Amount.front (a : Amount) (data : Bytes) : Bytes :=
  if a.inOctets then data.take (if a.sign = some '-' then data.length - a.count else a.count)
  else
    let lines := fullLines data
    (lines.take (if a.sign = some '-' then lines.length - a.count else a.count)).flatten

def Amount.back (a : Amount) (data : Bytes) : Bytes :=
  if a.inOctets then data.drop (if a.sign = some '+' then a.count - 1 else data.length - a.count)
  else
    let lines := fullLines data
    (lines.drop (if a.sign = some '+' then a.count - 1 else lines.length - a.count)).flatten

/-- So much is read at a time. -/
def blockSize : Nat := 8192

/-- Whether everything that a pipe still holds was needed. -/
def Amount.needsAll (a : Amount) (data front : Bytes) : Bool :=
  a.sign = some '-' || (front.length = data.length &&
    !(if a.inOctets then front.length = a.count else (fullLines front).length = a.count && front.getLast? = some 0x0A))

/-- The first part of the standard input. No more is taken than is needed, as far as that can be. -/
def takeFront (a : Amount) : Eval (Except Fault Bytes) := do
  match ← peekAll 0 endless with
  | .error fault => return .error fault
  | .ok data =>
    let front := a.front data
    let isPipe := (← fileOf 0).any fun file => match file.2.channel with
      | .pipe _ => true
      | _ => false
    let blocks := (front.length + blockSize - 1) / blockSize * blockSize
    skip 0 (if isPipe then min data.length (max blocks blockSize) else front.length) (a.needsAll data front)
    return .ok front

def showPart (self : Text) (g : Given) (part : Text → Eval (Except Fault Bytes)) : Eval Unit := do
  let names := inputsOf g.operands
  let hasHeadings : Bool := match g.last? "qv" with
    | some letter => letter = 'v'
    | none => names.length > 1
  let mut isFirst := true
  for name in names do
    match ← part name with
    | .error fault =>
      if fault = .isADirectory then
        if hasHeadings then emit self (toOctets (heading isFirst name))
        fails self s!"error reading {quoted (inputName name)}: {fault.reason}"
        isFirst := false
      else fails self s!"cannot open {quoted (inputName name)} for reading: {fault.reason}"
    | .ok data =>
      if hasHeadings then emit self (toOctets (heading isFirst name))
      isFirst := false
      emit self data

def showFront : Utility := fun self arguments => do
  let g ← partGrammar.read self (oldAmount "-" arguments)
  let amount ← amountOf self g
  showPart self g fun name => do
    if isStandardInput name then takeFront amount
    else return (← inputOf name).map amount.front

def showBack : Utility := fun self arguments => do
  let g ← partGrammar.read self (oldAmount "-+" arguments)
  let amount ← amountOf self g
  showPart self g fun name => return (← inputOf name).map amount.back

/-- Copies the standard input to files as well. -/
def copyToFiles : Utility := fun self arguments => do
  let g ← ({ letters := "aip", names := [("append", 'a'), ("ignore-interrupts", 'i')] } : Grammar).read self arguments
  let data ← match ← readAll 0 with
    | .ok data => pure data
    | .error fault =>
      fails self s!"read error: {fault.reason}"
      pure []
  emit self data
  for name in g.operands do
    match ← openPath (if g.has "a" then .append else .write) name with
    | .error fault => fails self (nameAndReason name fault.reason)
    | .ok file =>
      let (id, s) := (← getSystem).openNew file
      modifySystem fun _ => s
      let before := (← getProcess).descriptors
      modifyProcess fun p => { p with descriptors := (3, id) :: before.filter (·.1 ≠ 3) }
      match ← writeOctets 3 data with
      | .ok _ => pure ()
      | .error fault => fails self (nameAndReason name fault.reason)
      modifyProcess fun p => { p with descriptors := before }

/-- What `wc` counts. -/
structure Counts where
  lines : Nat := 0
  words : Nat := 0
  octets : Nat := 0
  longest : Nat := 0

namespace Counts

def wordsIn : Bool → Text → Nat
  | _, [] => 0
  | inWord, c :: rest =>
    if isSpace c then wordsIn false rest
    else if c.toNat ≤ 32 ∨ c.toNat = 127 then wordsIn inWord rest
    else if inWord then wordsIn true rest else wordsIn true rest + 1

def widthOf (line : Text) : Nat :=
  line.foldl (fun n c => if c = '\t' then n + 8 - n % 8 else if c.toNat < 32 ∨ 126 < c.toNat then n else n + 1) 0

def ofData (data : Bytes) : Counts :=
  let text := ofOctets data
  { lines := data.count 0x0A
    words := wordsIn false text
    octets := data.length
    longest := ((linesOf text).map widthOf).foldl max 0 }

def add (a b : Counts) : Counts :=
  { lines := a.lines + b.lines
    words := a.words + b.words
    octets := a.octets + b.octets
    longest := max a.longest b.longest }

end Counts

def countGrammar : Grammar where
  letters := "clLmw"
  names := [("bytes", 'c'), ("chars", 'm'), ("lines", 'l'), ("words", 'w'), ("max-line-length", 'L')]

def countUp : Utility := fun self arguments => do
  let g ← countGrammar.read self arguments
  let kinds := if g.has "clLmw" then "lwmcL".toList.filter fun c => g.has (String.singleton c) else "lwc".toList
  let names := inputsOf g.operands
  let mut results := []
  for name in names do
    let isRegular ← if isStandardInput name then do
        pure ((← fileOf 0).any fun file => match file.2.channel with
          | .file _ | .removed _ => true
          | _ => false)
      else pure ((← getFiles).isFile (pathOf name))
    match ← inputOf name with
    | .ok data => results := results ++ [(name, Counts.ofData data, isRegular)]
    | .error fault =>
      fails self (nameAndReason (if isStandardInput name then "-".toList else name) fault.reason)
      if fault = .isADirectory then results := results ++ [(name, ({} : Counts), false)]
  let regular := (results.filter (·.2.2)).foldl (fun soFar result => soFar + result.2.1.octets) 0
  let width := if names.length = 1 ∧ kinds.length = 1 then 1
    else max (decimalOf regular).length (if results.all (·.2.2) then 1 else 7)
  let row (name : Text) (c : Counts) : Text :=
    let columns := kinds.map fun kind =>
      let n := decimalOf (match kind with
        | 'l' => c.lines
        | 'w' => c.words
        | 'L' => c.longest
        | _ => c.octets)
      List.replicate (width - n.length) ' ' ++ n
    List.intercalate [' '] (columns ++ if name = [] then [] else [name])
  for (name, counts, _) in results do emitLine self (row (if g.operands = [] then [] else name) counts)
  if names.length > 1 then
    emitLine self (row "total".toList ((results.map fun result => result.2.1).foldl Counts.add {}))

end Unjar.Shell
