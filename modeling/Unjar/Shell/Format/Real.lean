import Unjar.Shell.Text

/-!
Real numbers of 64 bits: read from text, and written with so many digits. All is calculated exactly, so
that each result is the nearest one, and of two nearest ones the even one.
-/

namespace Unjar.Shell

/-- A number, finite ones being `mantissa` times a power of two. -/
inductive Real where
  | finite (negative : Bool) (mantissa : Nat) (exponent : Int)
  | infinite (negative : Bool)
  | notANumber (negative : Bool)

namespace Real

/-- The nearest natural number to a quotient, the even one of two. -/
def roundDivision (numerator denominator : Nat) : Nat :=
  let whole := numerator / denominator
  let rest := 2 * (numerator % denominator)
  if rest < denominator ∨ (rest = denominator ∧ whole % 2 = 0) then whole else whole + 1

/-- So many times as large, in powers of a base: numerator and denominator. -/
def scaled (base : Nat) (numerator denominator : Nat) (power : Int) : Nat × Nat :=
  if 0 ≤ power then (numerator * Nat.pow base power.natAbs, denominator)
  else (numerator, denominator * Nat.pow base power.natAbs)

def mantissaBits : Nat := 53

def leastExponent : Int := -1074

def greatestExponent : Int := 971

/-- The number nearest to a quotient. -/
def ofQuotient (negative : Bool) (numerator denominator : Nat) : Real :=
  if numerator = 0 then finite negative 0 leastExponent
  else
    let guess : Int := (numerator.log2 : Int) - (denominator.log2 : Int) - (mantissaBits : Int)
    -- The guess leaves one bit more at most, and never one less.
    let at' (exponent : Int) : Nat :=
      let (n, d) := scaled 2 numerator denominator (-exponent)
      roundDivision n d
    let needsMore := 1 <<< mantissaBits ≤ at' guess
    let exponent := max leastExponent (if needsMore then guess + 1 else guess)
    let mantissa := at' exponent
    let (mantissa, exponent) :=
      if mantissa = 1 <<< mantissaBits then (mantissa / 2, exponent + 1) else (mantissa, exponent)
    if greatestExponent < exponent then infinite negative else finite negative mantissa exponent

def lowered (text : Text) : Text := text.map Char.toLower

/-- A decimal exponent at the front, behind its letter. -/
def exponentAtFront (letter : Char) (text : Text) : Int × Text :=
  match text with
  | c :: rest =>
    if c.toLower ≠ letter then (0, text)
    else
      let (negative, digits) := match rest with
        | '-' :: digits => (true, digits)
        | '+' :: digits => (false, digits)
        | digits => (false, digits)
      let shown := digits.takeWhile Char.isDigit
      if shown = [] then (0, text)
      else
        let size : Int := valueIn 10 (shown.take 8)
        (if negative then -size else size, digits.drop shown.length)
  | [] => (0, text)

/-- Digits with a point in them at the front: their value without the point, how many follow it, and the
rest. -/
def digitsAtFront? (base : Nat) (text : Text) : Option (Nat × Nat × Text) :=
  let whole := text.takeWhile (isDigitIn base)
  let behind := text.drop whole.length
  let (fraction, rest) := match behind with
    | '.' :: more => (more.takeWhile (isDigitIn base), more.dropWhile (isDigitIn base))
    | _ => ([], behind)
  if whole = [] ∧ fraction = [] then none
  else some (valueIn base (whole ++ fraction), fraction.length, rest)

/-- A number without a sign at the front of a text, and what is behind it. -/
def unsignedAtFront? (negative : Bool) (text : Text) : Option (Real × Text) :=
  let word := lowered text
  if "infinity".toList.isPrefixOf word then some (infinite negative, text.drop 8)
  else if "inf".toList.isPrefixOf word then some (infinite negative, text.drop 3)
  else if "nan".toList.isPrefixOf word then some (notANumber negative, text.drop 3)
  else
    let hexadecimal? := if "0x".toList.isPrefixOf word then digitsAtFront? 16 (text.drop 2) else none
    match hexadecimal? with
    | some (value, places, rest) =>
      let (power, rest) := exponentAtFront 'p' rest
      let (n, d) := scaled 2 value 1 (power - 4 * places)
      some (ofQuotient negative n d, rest)
    | none =>
      (digitsAtFront? 10 text).map fun (value, places, rest) =>
        let (power, rest) := exponentAtFront 'e' rest
        let power := max (-100000) (min 100000 (power - places))
        if value = 0 then (finite negative 0 leastExponent, rest)
        else if 400 < power then (infinite negative, rest)
        else
          let (n, d) := scaled 10 value 1 power
          (ofQuotient negative n d, rest)

/-- A number at the front of a text, and what is behind it. -/
def atFront? (text : Text) : Option (Real × Text) :=
  match dropSpaces text with
  | '-' :: rest => unsignedAtFront? true rest
  | '+' :: rest => unsignedAtFront? false rest
  | rest => unsignedAtFront? false rest

def isNegative : Real → Bool
  | finite negative _ _ | infinite negative | notANumber negative => negative

/-- The value as a quotient. -/
def quotient (mantissa : Nat) (exponent : Int) : Nat × Nat := scaled 2 mantissa 1 exponent

/-- Digits with at least so many of them, zeros in front. -/
def padded (count : Nat) (digits : Text) : Text :=
  List.replicate (count - digits.length) '0' ++ digits

def withPoint (keepsPoint : Bool) (whole fraction : Text) : Text :=
  if fraction = [] ∧ ¬ keepsPoint then whole else whole ++ '.' :: fraction

/-- So many places behind the point. -/
def fixed (keepsPoint : Bool) (places mantissa : Nat) (exponent : Int) : Text :=
  let (n, d) := quotient mantissa exponent
  let digits := padded (places + 1) (decimalOf (roundDivision (n * Nat.pow 10 places) d))
  let split := digits.length - places
  withPoint keepsPoint (digits.take split) (digits.drop split)

/-- The digits of a number in scientific notation, one in front of the point and so many behind it, and
the power of ten. -/
def scientificDigits (places mantissa : Nat) (exponent : Int) : Text × Int :=
  if mantissa = 0 then (List.replicate (places + 1) '0', 0)
  else
    let (n, d) := quotient mantissa exponent
    let size : Int := (decimalOf (n / d)).length
    let guess : Int :=
      if d ≤ n then size - 1 else -((decimalOf (d / n)).length : Int)
    let at' (power : Int) : Nat :=
      let (n, d) := scaled 10 n d (places - power)
      roundDivision n d
    -- The guess is the power itself or one less than it.
    let power := if Nat.pow 10 (places + 1) ≤ at' guess then guess + 1 else guess
    (decimalOf (at' power), power)

def shownPower (letter : Char) (power : Int) : Text :=
  letter :: (if power < 0 then '-' else '+') :: padded 2 (decimalOf power.natAbs)

def scientific (keepsPoint : Bool) (letter : Char) (places mantissa : Nat) (exponent : Int) : Text :=
  let (digits, power) := scientificDigits places mantissa exponent
  withPoint keepsPoint (digits.take 1) (digits.drop 1) ++ shownPower letter power

def dropLastZeros (text : Text) : Text :=
  if text.contains '.' then
    match text.reverse.dropWhile (· = '0') with
    | '.' :: whole => whole.reverse
    | shown => shown.reverse
  else text

/-- The shorter of both notations, with so many digits that count. -/
def general (keepsZeros : Bool) (letter : Char) (precision mantissa : Nat) (exponent : Int) : Text :=
  let precision := max 1 precision
  let (digits, power) := scientificDigits (precision - 1) mantissa exponent
  if power < -4 ∨ (precision : Int) ≤ power then
    let number := withPoint keepsZeros (digits.take 1) (digits.drop 1)
    (if keepsZeros then number else dropLastZeros number) ++ shownPower letter power
  else
    let number := fixed keepsZeros ((precision : Int) - 1 - power).toNat mantissa exponent
    if keepsZeros then number else dropLastZeros number

end Real

end Unjar.Shell
