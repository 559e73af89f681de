import Unjar.Shell.Utility.Showing

/-!
Programs that show octets in another notation.
-/

namespace Unjar.Shell

/-- How octets are shown. -/
inductive OctetStyle where
  | char
  | number (base size : Nat) (signed : Bool)

namespace OctetStyle

/-- How many octets make up one item. -/
def size : OctetStyle → Nat
  | char => 1
  | number _ size _ => size

/-- How wide an item is, with the blank in front of it. -/
def width : OctetStyle → Nat
  | char => 4
  | number base size signed =>
    let digits := (Nat.toDigits base (Nat.pow 256 size - 1)).length
    digits + 1 + (if signed then 1 else 0)

def charText (octet : UInt8) : Text :=
  let c := Char.ofNat octet.toNat
  match c with
  | '\x00' => ['\\', '0']
  | '\x07' => ['\\', 'a']
  | '\x08' => ['\\', 'b']
  | '\t' => ['\\', 't']
  | '\n' => ['\\', 'n']
  | '\x0b' => ['\\', 'v']
  | '\x0c' => ['\\', 'f']
  | '\x0d' => ['\\', 'r']
  | c => if 32 ≤ c.toNat ∧ c.toNat < 127 then [c] else (Nat.toDigits 8 octet.toNat).leftpad 3 '0'

/-- One item, the first octet of which counts least. -/
def itemText (s : OctetStyle) (octets : Bytes) : Text :=
  match s with
  | char => octets.flatMap charText
  | number base size signed =>
    let value := octets.foldr (fun octet n => n * 256 + octet.toNat) 0
    if signed then
      let half := Nat.pow 256 size / 2
      signedDecimalOf (if half ≤ value then (value : Int) - Nat.pow 256 size else value)
    else if base = 10 then decimalOf value
    else (Nat.toDigits base value).leftpad (Nat.toDigits base (Nat.pow 256 size - 1)).length '0'

def items (size : Nat) : Nat → Bytes → List Bytes
  | 0, _ | _, [] => []
  | fuel + 1, data => data.take size :: items size fuel (data.drop size)

def lineText (s : OctetStyle) (widest : Nat) (octets : Bytes) : Text :=
  let width := widest * s.size
  (items (max s.size 1) (octets.length + 1) octets).flatMap fun item => (s.itemText item).leftpad width ' '

/-- The styles that are named by a text such as `x1c`. -/
def ofText? : Nat → Text → Option (List OctetStyle)
  | 0, _ | _, [] => some []
  | fuel + 1, letter :: rest =>
    let digits := rest.takeWhile Char.isDigit
    let after := rest.drop digits.length
    let (size, after) := match digits, after with
      | [], 'C' :: after => (1, after)
      | [], 'S' :: after => (2, after)
      | [], 'I' :: after => (4, after)
      | [], 'L' :: after => (8, after)
      | [], after => (4, after)
      | digits, after => (valueIn 10 digits, after)
    let isSize := [1, 2, 4, 8].contains size
    match letter with
    | 'c' => (ofText? fuel rest).map (char :: ·)
    | 'x' => if isSize then (ofText? fuel after).map (number 16 size false :: ·) else none
    | 'o' => if isSize then (ofText? fuel after).map (number 8 size false :: ·) else none
    | 'u' => if isSize then (ofText? fuel after).map (number 10 size false :: ·) else none
    | 'd' => if isSize then (ofText? fuel after).map (number 10 size true :: ·) else none
    | _ => none

end OctetStyle

def octetGrammar : Grammar where
  letters := "A:t:j:N:w:vcbxdosan"
  names := [("address-radix", 'A'), ("format", 't'), ("skip-bytes", 'j'), ("read-bytes", 'N'), ("width", 'w'),
    ("output-duplicates", 'v')]

/-- The styles that letters of old stand for. -/
def oldStyle? : Char → Option OctetStyle
  | 'c' => some .char
  | 'b' => some (.number 8 1 false)
  | 'x' => some (.number 16 2 false)
  | 'd' => some (.number 10 2 false)
  | 'o' => some (.number 8 2 false)
  | 's' => some (.number 10 2 true)
  | _ => none

def showOctets : Utility := fun self arguments => do
  let g ← octetGrammar.read self arguments
  let mut styles : List OctetStyle := []
  for (letter, text) in g.options do
    if letter = 't' then
      match OctetStyle.ofText? (text.length + 1) text with
      | some more => styles := styles ++ more
      | none => giveUp self 1 s!"invalid type string {quoted text}"
    else styles := styles ++ (oldStyle? letter).toList
  if styles = [] then styles := [.number 8 2 false]
  let mut whole : Bytes := []
  for name in inputsOf g.operands do
    match ← inputOf name with
    | .ok more => whole := whole ++ more
    | .error fault => fails self s!"{nameText name}: {fault.reason}"
  let amount (letter : Char) : Option Nat := (g.argument? letter).bind multiplied?
  let skipped := (amount 'j').getD 0
  let data := match amount 'N' with
    | some count => (whole.drop skipped).take count
    | none => whole.drop skipped
  let width := max ((amount 'w').getD 16) 1
  let address (place : Nat) : Text :=
    match g.argument? 'A' with
    | some ['n'] => []
    | some ['d'] => (decimalOf place).leftpad 7 '0'
    | some ['x'] => (Nat.toDigits 16 place).leftpad 6 '0'
    | _ => (Nat.toDigits 8 place).leftpad 7 '0'
  let widest := (styles.map fun s => (s.width + s.size - 1) / s.size).foldl max 0
  let rows := OctetStyle.items width (data.length + 1) data
  let mut place := skipped
  let mut before : Bytes := []
  let mut isRepeated := false
  for row in rows do
    if row = before ∧ row.length = width ∧ ¬ g.has "v" then
      unless isRepeated do emitLine self ['*']
      isRepeated := true
    else
      let mut front := address place
      for style in styles do
        emitLine self (front ++ style.lineText widest row)
        front := List.replicate front.length ' '
      isRepeated := false
    before := row
    place := place + row.length
  if address place ≠ [] then emitLine self (address place)

/-- The letters that stand for six bits each. -/
def sixBitLetters : Text := "ABCDEFGHIJKLMNOPQRSTUVWXYZabcdefghijklmnopqrstuvwxyz0123456789+/".toList

def sixBitLetter (n : Nat) : Char := (sixBitLetters[n % 64]?).getD 'A'

def inSixBits : Bytes → Text
  | a :: b :: c :: rest =>
    let n := a.toNat * 65536 + b.toNat * 256 + c.toNat
    sixBitLetter (n / 262144) :: sixBitLetter (n / 4096) :: sixBitLetter (n / 64) :: sixBitLetter n :: inSixBits rest
  | [a, b] =>
    let n := a.toNat * 65536 + b.toNat * 256
    [sixBitLetter (n / 262144), sixBitLetter (n / 4096), sixBitLetter (n / 64), '=']
  | [a] =>
    let n := a.toNat * 65536
    [sixBitLetter (n / 262144), sixBitLetter (n / 4096), '=', '=']
  | [] => []

/-- Octets from letters, and whether all of them were read. -/
def fromSixBits : Text → Bytes × Bool
  | a :: b :: c :: d :: rest =>
    let value? (e : Char) : Option Nat := sixBitLetters.findIdx? (· = e)
    let octet (n : Nat) : UInt8 := (n % 256).toUInt8
    match value? a, value? b, value? c, value? d with
    | some a, some b, some c, some d =>
      let n := a * 262144 + b * 4096 + c * 64 + d
      let (more, isWhole) := fromSixBits rest
      (octet (n / 65536) :: octet (n / 256) :: octet n :: more, isWhole)
    | some a, some b, some c, none =>
      let n := a * 262144 + b * 4096 + c * 64
      ([octet (n / 65536), octet (n / 256)], d = '=' && rest.isEmpty)
    | some a, some b, none, _ => ([octet ((a * 64 + b) / 16)], c = '=' && d = '=' && rest.isEmpty)
    | _, _, _, _ => ([], false)
  | [] => ([], true)
  | _ => ([], false)

def encodeOctets : Utility := fun self arguments => do
  let g ← ({ letters := "diw:", names := [("decode", 'd'), ("ignore-garbage", 'i'), ("wrap", 'w')] } : Grammar).read
    self arguments
  let name := (inputsOf g.operands).headD []
  match ← inputOf name with
  | .error fault => giveUp self 1 s!"{nameText name}: {fault.reason}"
  | .ok data =>
    if g.has "d" then
      let letters := (ofOctets data).filter fun c => c ≠ '\n' ∧ (¬ g.has "i" ∨ c = '=' ∨ sixBitLetters.contains c)
      let (octets, isWhole) := fromSixBits letters
      emit self octets
      unless isWhole do giveUp self 1 "invalid input"
    else
      let letters := inSixBits data
      let width := ((g.argument? 'w').map (valueIn 10)).getD 76
      if width = 0 then emit self (toOctets letters)
      else for line in OctetStyle.items width (letters.length + 1) (toOctets letters) do emit self (line ++ [0x0A])

end Unjar.Shell
