import Unjar.Shell.Arithmetic
import Unjar.Shell.Format.Real

/-!
What a conversion of a format makes of an argument.
-/

namespace Unjar.Shell

structure Conversion where
  leftAligned : Bool := false
  zeros : Bool := false
  plus : Bool := false
  space : Bool := false
  alternate : Bool := false
  width : Nat := 0
  precision : Option Nat := none

namespace Conversion

/-- Text in a field: a sign or a prefix stands before the zeros that fill it. -/
def fill (c : Conversion) (front text : Text) : Text :=
  let missing := c.width - front.length - text.length
  if c.leftAligned then front ++ text ++ List.replicate missing ' '
  else if c.zeros then front ++ List.replicate missing '0' ++ text
  else List.replicate missing ' ' ++ front ++ text

def text (c : Conversion) (value : Text) : Text :=
  { c with zeros := false }.fill [] (match c.precision with
    | some n => value.take n
    | none => value)

def sign (c : Conversion) (negative : Bool) : Text :=
  if negative then ['-'] else if c.plus then ['+'] else if c.space then [' '] else []

/-- Digits of an integer: a precision says how many there are at least. -/
def integer (c : Conversion) (front digits : Text) : Text :=
  match c.precision with
  | none => c.fill front digits
  | some n =>
    let digits := if n = 0 ∧ digits = ['0'] then [] else Real.padded n digits
    { c with zeros := false }.fill front digits

def signed (c : Conversion) (n : Int) : Text := c.integer (c.sign (n < 0)) (decimalOf n.natAbs)

def octal (c : Conversion) (n : Nat) : Text :=
  let digits := Nat.toDigits 8 n
  let digits := match c.precision with
    | some least => if least = 0 ∧ n = 0 then [] else Real.padded least digits
    | none => digits
  let digits := if c.alternate ∧ digits.head? ≠ some '0' then '0' :: digits else digits
  if c.precision.isSome then { c with zeros := false }.fill [] digits else c.fill [] digits

def hexadecimal (c : Conversion) (upper : Bool) (n : Nat) : Text :=
  let digits := Nat.toDigits 16 n
  let front := if c.alternate ∧ n ≠ 0 then if upper then ['0', 'X'] else ['0', 'x'] else []
  c.integer front (if upper then digits.map Char.toUpper else digits)

/-- A number in hexadecimal digits with a power of two. -/
def hexadecimalReal (c : Conversion) (mantissa : Nat) (exponent : Int) : Text :=
  if mantissa = 0 then "0x0p+0".toList
  else
    let shift := 52 - mantissa.log2
    let full := mantissa <<< shift
    let power := exponent - shift + 52
    let fraction := (Real.padded 13 (Nat.toDigits 16 (full - (1 <<< 52)))).reverse.dropWhile (· = '0')
    let sign := if power < 0 then '-' else '+'
    "0x1".toList ++ Real.withPoint c.alternate [] fraction.reverse ++ 'p' :: sign :: decimalOf power.natAbs

def real (c : Conversion) (kind : Char) (x : Real) : Text :=
  let front := c.sign x.isNegative
  let cased (text : Text) : Text := if kind.isUpper then text.map Char.toUpper else text
  let precision := c.precision.getD 6
  match x with
  | .infinite _ => { c with zeros := false }.fill front (cased "inf".toList)
  | .notANumber _ => { c with zeros := false }.fill front (cased "nan".toList)
  | .finite _ mantissa exponent =>
    c.fill front (match kind.toLower with
      | 'f' => Real.fixed c.alternate precision mantissa exponent
      | 'e' => cased (Real.scientific c.alternate 'e' precision mantissa exponent)
      | 'g' => cased (Real.general c.alternate 'e' precision mantissa exponent)
      | _ => cased (c.hexadecimalReal mantissa exponent))

end Conversion

/-- A number that an argument stands for, and what is wrong with it. -/
structure NumberArgument where
  value : Int
  complaint : Option String := none

def leastInteger : Int := Int64.minValue.toInt

def greatestInteger : Int := Int64.maxValue.toInt

def outOfRange : String := "Numerical result out of range"

/-- A character behind a quotation mark stands for its code. -/
def characterCode? : Text → Option Nat
  | c :: rest => if c = quotation ∨ c = doubleQuotation then some ((rest.head?.map Char.toNat).getD 0) else none
  | [] => none

/-- Tells what is behind a number that was read from the front of an argument. -/
def complaintOn (argument rest : Text) (isNumber : Bool) : Option String :=
  if argument = [] then none
  else if ¬ isNumber then some s!"{shown argument}: expected numeric value"
  else if rest ≠ [] then some s!"{shown argument}: not completely converted"
  else none

/-- An integer with so many values above zero; one out of range stands for the nearest in it. -/
def integerArgument (isSigned : Bool) (argument : Text) : NumberArgument :=
  match characterCode? argument with
  | some code => { value := code }
  | none =>
    let (negative, digits) := match dropSpaces argument with
      | '-' :: digits => (true, digits)
      | '+' :: digits => (false, digits)
      | digits => (false, digits)
    let isNumber := digits.head?.any Char.isDigit
    -- A prefix without digits behind it is no more than its zero.
    let (size, rest) := match digits with
      | '0' :: x :: more =>
        if (x = 'x' ∨ x = 'X') ∧ ¬ more.head?.any (isDigitIn 16) then (0, x :: more) else digitsAtFront digits
      | digits => digitsAtFront digits
    let complaint := complaintOn argument rest isNumber
    let wide := 1 <<< 64
    let (value, exceeds) : Int × Bool :=
      if isSigned then
        let value : Int := if negative then -(size : Int) else size
        (max leastInteger (min greatestInteger value), value < leastInteger ∨ greatestInteger < value)
      else if wide ≤ size then (wide - 1, true)
      else (if negative ∧ size ≠ 0 then (wide - size : Nat) else size, false)
    { value, complaint := complaint <|> if exceeds then some s!"{shown argument}: {outOfRange}" else none }

/-- A real number, and what is wrong with it. -/
def realArgument (argument : Text) : Real × Option String :=
  match characterCode? argument with
  | some code => (.ofQuotient false code 1, none)
  | none =>
    match Real.atFront? argument with
    | none => (.ofQuotient false 0 1, complaintOn argument argument false)
    | some (value, rest) =>
      let isLarge := match value with
        | .infinite _ => argument.any Char.isDigit
        | _ => false
      (value, complaintOn argument rest true <|> if isLarge then some s!"{shown argument}: {outOfRange}" else none)

end Unjar.Shell
