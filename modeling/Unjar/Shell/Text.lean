import Unjar.Bytes

/-!
Text as a shell sees it. A character stands for one octet, so that text in any encoding passes through
unchanged.
-/

namespace Unjar.Shell

abbrev Text := List Char

def ofOctets (bytes : Bytes) : Text :=
  bytes.map fun octet => Char.ofNat octet.toNat

def toOctets (text : Text) : Bytes :=
  text.map fun c => c.toNat.toUInt8

/-- Text as a part of a message. -/
def shown (text : Text) : String := String.ofList text

def quotation : Char := '\x27'

def doubleQuotation : Char := '\x22'

def backQuotation : Char := '\x60'

def quoted (text : Text) : String := s!"'{shown text}'"

def isBlank (c : Char) : Bool := c == ' ' || c == '\t'

def isSpace (c : Char) : Bool := c == ' ' || (9 ≤ c.toNat && c.toNat ≤ 13)

def dropSpaces (text : Text) : Text := text.dropWhile isSpace

def trimSpaces (text : Text) : Text := (dropSpaces (dropSpaces text).reverse).reverse

def isNameStart (c : Char) : Bool := c.isAlpha || c == '_'

def isNamePart (c : Char) : Bool := c.isAlphanum || c == '_'

def isName (text : Text) : Bool :=
  text.head?.any isNameStart && text.all isNamePart

/-- The name at the front, which is empty if there is none. -/
def nameAtFront (text : Text) : Text :=
  if text.head?.any isNameStart then text.takeWhile isNamePart else []

def digitOf? (base : Nat) (c : Char) : Option Nat :=
  let value :=
    if c.isDigit then c.toNat - 48
    else if 'a' ≤ c ∧ c ≤ 'f' then c.toNat - 87
    else if 'A' ≤ c ∧ c ≤ 'F' then c.toNat - 55
    else base
  if value < base then some value else none

def isDigitIn (base : Nat) (c : Char) : Bool := (digitOf? base c).isSome

def valueIn (base : Nat) (text : Text) : Nat :=
  text.foldl (fun n c => n * base + (digitOf? base c).getD 0) 0

def decimalOf (n : Nat) : Text := (Nat.repr n).toList

def signedDecimalOf (n : Int) : Text :=
  if n < 0 then '-' :: decimalOf n.natAbs else decimalOf n.natAbs

/-- An integer as it is written, with a sign or without. -/
def integer? (text : Text) : Option Int :=
  let digits? (digits : Text) : Option Nat :=
    if digits ≠ [] ∧ digits.all Char.isDigit then some (valueIn 10 digits) else none
  match text with
  | '-' :: digits => (digits? digits).map fun n => -(n : Int)
  | '+' :: digits => (digits? digits).map Int.ofNat
  | digits => (digits? digits).map Int.ofNat

/-- A number that fits into 64 bits, with spaces around it. -/
def wholeNumber? (text : Text) : Option Int :=
  (integer? (trimSpaces text)).filter fun n => Int64.minValue.toInt ≤ n ∧ n ≤ Int64.maxValue.toInt

/-- The lines of a text. What follows the last line end is a line only if there is something. -/
def linesOf (text : Text) : List Text :=
  match text.splitOn '\n' with
  | lines => if lines.getLast? = some [] then lines.dropLast else lines

/-- The first part of a list up to a place where something holds, and the rest from there on. -/
def splitAtFirst (p : Text → Bool) : Text → Option (Text × Text)
  | [] => if p [] then some ([], []) else none
  | c :: rest => if p (c :: rest) then some ([], c :: rest) else
      (splitAtFirst p rest).map fun (before, after) => (c :: before, after)

end Unjar.Shell
