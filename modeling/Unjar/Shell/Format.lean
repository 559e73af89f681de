import Unjar.Shell.Format.Conversion

/-!
Text made from formats, in which a backslash starts an escape and a percent sign a conversion.
-/

namespace Unjar.Shell

/-- Up to so many octal digits. -/
def octalDigits : Nat → Nat → Text → Nat × Text
  | 0, value, text => (value, text)
  | digits + 1, value, c :: rest =>
    match digitOf? 8 c with
    | some d => octalDigits digits (value * 8 + d) rest
    | none => (value, c :: rest)
  | _, value, [] => (value, [])

def escapeLetters : List (Char × Char) :=
  [('a', '\x07'), ('b', '\x08'), ('f', '\x0c'), ('n', '\n'), ('r', '\x0d'), ('t', '\t'), ('v', '\x0b'), ('\\', '\\')]

/-- What an escape behind a backslash stands for. A backslash without an escape stands for itself. -/
def escape (text : Text) : Char × Text :=
  match text with
  | [] => ('\\', [])
  | c :: rest =>
    match escapeLetters.lookup c with
    | some meant => (meant, rest)
    | none =>
      if isDigitIn 8 c then
        let (value, rest) := octalDigits 3 0 (c :: rest)
        (Char.ofNat (value % 256), rest)
      else ('\\', text)

/-- Text with its escapes done, and whether `\c` ended it. An octal number may start with a zero of
its own here. -/
def unescapeFrom : Nat → Text → Text → Text × Bool
  | 0, soFar, _ => (soFar.reverse, false)
  | _, soFar, [] => (soFar.reverse, false)
  | fuel + 1, soFar, c :: rest =>
    if c ≠ '\\' then unescapeFrom fuel (c :: soFar) rest
    else match rest with
      | 'c' :: _ => (soFar.reverse, true)
      | '0' :: d :: more =>
        let (meant, rest) := escape (if isDigitIn 8 d then d :: more else rest)
        unescapeFrom fuel (meant :: soFar) rest
      | rest =>
        let (meant, rest) := escape rest
        unescapeFrom fuel (meant :: soFar) rest

def unescape (text : Text) : Text × Bool := unescapeFrom (text.length + 1) [] text

/-- The arguments as one line, which `-n` leaves open. -/
def echoed (arguments : List Text) : Text :=
  let (newline, arguments) := match arguments with
    | ['-', 'n'] :: rest => (false, rest)
    | arguments => (true, arguments)
  let (text, ended) := unescape (List.intercalate [' '] arguments)
  if newline && !ended then text ++ ['\n'] else text

/-- What was made from a format so far, the latest character first. -/
structure Printed where
  text : Text := []
  arguments : List Text
  /-- Whether a conversion asked for an argument. -/
  converted : Bool := false
  ended : Bool := false
  /-- What was wrong with arguments. -/
  complaints : List String := []
  /-- What was wrong with the format. -/
  failure : Option String := none

namespace Printed

def put (p : Printed) (text : Text) : Printed := { p with text := text.reverse ++ p.text }

def complain (p : Printed) (complaint : Option String) : Printed :=
  { p with complaints := p.complaints ++ complaint.toList }

def takeArgument (p : Printed) : Option Text × Printed :=
  (p.arguments.head?, { p with arguments := p.arguments.tail, converted := true })

def takeInteger (isSigned : Bool) (p : Printed) : Int × Printed :=
  let (argument, p) := p.takeArgument
  let n := integerArgument isSigned (argument.getD [])
  (n.value, p.complain n.complaint)

def convert (c : Conversion) (kind : Char) (written : Text) (p : Printed) : Printed :=
  let natural (digits : Nat → Text) : Printed :=
    let (n, p) := p.takeInteger false
    p.put (digits n.toNat)
  match kind with
  | 's' =>
    let (argument, p) := p.takeArgument
    p.put (c.text (argument.getD []))
  | 'b' =>
    let (argument, p) := p.takeArgument
    let (text, ended) := unescape (argument.getD [])
    { p.put (c.text text) with ended }
  | 'c' =>
    let (argument, p) := p.takeArgument
    p.put ({ c with precision := none }.text [((argument.getD []).head?).getD '\x00'])
  | 'd' | 'i' =>
    let (n, p) := p.takeInteger true
    p.put (c.signed n)
  | 'u' => natural fun n => c.integer [] (decimalOf n)
  | 'x' => natural (c.hexadecimal false)
  | 'X' => natural (c.hexadecimal true)
  | 'o' => natural c.octal
  | kind =>
    if "aAeEfFgG".toList.contains kind then
      let (argument, p) := p.takeArgument
      let (x, complaint) := realArgument (argument.getD [])
      (p.complain complaint).put (c.real kind x)
    else { p with ended := true, failure := some s!"%{shown written}: invalid directive" }

def flag (c : Conversion) : Char → Conversion
  | '-' => { c with leftAligned := true }
  | '0' => { c with zeros := true }
  | '+' => { c with plus := true }
  | ' ' => { c with space := true }
  | '#' => { c with alternate := true }
  | _ => c

/-- The conversion behind a percent sign, up to its letter. A star stands for an argument. -/
def conversion (text : Text) (p : Printed) : Conversion × Text × Printed :=
  let flags := text.takeWhile "#-+ 0".toList.contains
  let c := flags.foldl flag {}
  let rest := text.drop flags.length
  let (c, rest, p) := match rest with
    | '*' :: rest =>
      let (n, p) := p.takeInteger true
      ({ c with width := n.natAbs, leftAligned := c.leftAligned || n < 0 }, rest, p)
    | rest => ({ c with width := valueIn 10 (rest.takeWhile Char.isDigit) }, rest.dropWhile Char.isDigit, p)
  match rest with
  | '.' :: '*' :: rest =>
    let (n, p) := p.takeInteger true
    ({ c with precision := if n < 0 then none else some n.natAbs }, rest, p)
  | '.' :: rest =>
    ({ c with precision := some (valueIn 10 (rest.takeWhile Char.isDigit)) }, rest.dropWhile Char.isDigit, p)
  | rest => (c, rest, p)

/-- One pass over the format. -/
def once : Nat → Text → Printed → Printed
  | 0, _, p => p
  | _, [], p => p
  | fuel + 1, c :: rest, p =>
    if p.ended then p
    else if c = '\\' then
      let (meant, rest) := escape rest
      once fuel rest (p.put [meant])
    else if c ≠ '%' then once fuel rest (p.put [c])
    else match rest with
      | '%' :: rest => once fuel rest (p.put ['%'])
      | text =>
        match conversion text p with
        | (c, kind :: rest, p) => once fuel rest (p.convert c kind (text.take (text.length - rest.length)))
        | (_, [], p) => { p with ended := true, failure := some "missing format character" }

/-- The format is used again as long as arguments remain. -/
def all (format : Text) : Nat → Printed → Printed
  | 0, p => p
  | fuel + 1, p =>
    let p := once (format.length + 1) format { p with converted := false }
    if p.converted ∧ p.arguments ≠ [] ∧ ¬ p.ended then all format fuel p else p

end Printed

/-- The arguments behind a format in its place. -/
def printed (format : Text) (arguments : List Text) : Printed :=
  Printed.all format (arguments.length + 1) { arguments }

end Unjar.Shell
