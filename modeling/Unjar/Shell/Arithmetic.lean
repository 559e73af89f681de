import Unjar.Shell.Text

namespace Unjar.Shell

/-- The binary operators from the loosest to the tightest, longer spellings first. -/
def operatorLevels : List (List String) :=
  [["||"], ["&&"], ["|"], ["^"], ["&"], ["==", "!="], ["<=", ">=", "<", ">"], ["<<", ">>"], ["+", "-"],
    ["*", "/", "%"]]

def truth (b : Bool) : Int64 := if b then 1 else 0

inductive ArithmeticError where
  | expectingPrimary
  | expectingColon
  | expectingParenthesis
  | expectingEnd
  | divisionByZero
  | illegalNumber (text : Text)
  deriving DecidableEq

def ArithmeticError.description : ArithmeticError → String
  | expectingPrimary => "expecting primary"
  | expectingColon => "expecting ':'"
  | expectingParenthesis => "expecting ')'"
  | expectingEnd => "expecting EOF"
  | divisionByZero => "division by zero"
  | illegalNumber _ => "Illegal number"

/-- Numbers are words of 64 bits, and division goes toward zero. -/
def applyOperator (op : String) (a b : Int64) : Except ArithmeticError Int64 :=
  match op with
  | "||" => .ok (truth (a ≠ 0 ∨ b ≠ 0))
  | "&&" => .ok (truth (a ≠ 0 ∧ b ≠ 0))
  | "|" => .ok (a ||| b)
  | "^" => .ok (a ^^^ b)
  | "&" => .ok (a &&& b)
  | "==" => .ok (truth (a = b))
  | "!=" => .ok (truth (a ≠ b))
  | "<=" => .ok (truth (a ≤ b))
  | ">=" => .ok (truth (b ≤ a))
  | "<" => .ok (truth (a < b))
  | ">" => .ok (truth (b < a))
  | "<<" => .ok (a <<< b)
  | ">>" => .ok (a >>> b)
  | "+" => .ok (a + b)
  | "-" => .ok (a - b)
  | "*" => .ok (a * b)
  | "/" => if b = 0 then .error .divisionByZero else .ok (a / b)
  | "%" => if b = 0 then .error .divisionByZero else .ok (a % b)
  | _ => .error .expectingPrimary

/-- Whether the first operand alone gives the value. -/
def settles (op : String) (first : Int64) : Bool :=
  (op == "||" && first ≠ 0) || (op == "&&" && first = 0)

/-- The operators whose result may be assigned to their first operand. -/
def assigningOperators : List String :=
  ["<<", ">>", "+", "-", "*", "/", "%", "&", "^", "|"]

/-- An operator of one level at the front, unless it is the start of a longer one or of the sign of an
assignment. -/
def operatorAt? (level : List String) (text : Text) : Option (String × Text) :=
  let text := dropSpaces text
  (level.find? fun op => op.toList.isPrefixOf text).bind fun op =>
    let rest := text.drop op.length
    let longer := (op = "|" ∨ op = "&" ∨ op = "<" ∨ op = ">") ∧ rest.head? = op.toList.head?
    let assigns := assigningOperators.contains op ∧ rest.head? = some '='
    if longer ∨ assigns then none else some (op, rest)

/-- The digits of a number at the front, and what is behind them: hexadecimal behind `0x`, octal behind
`0`, decimal otherwise. -/
def digitsAtFront (text : Text) : Nat × Text :=
  let digits (base : Nat) (text : Text) :=
    (valueIn base (text.takeWhile (isDigitIn base)), text.dropWhile (isDigitIn base))
  match text with
  | '0' :: 'x' :: rest | '0' :: 'X' :: rest => digits 16 rest
  | '0' :: rest => digits 8 rest
  | text => digits 10 text

def largest : Nat := Int64.maxValue.toInt.toNat

/-- A number at the front. One that is too large stands for the largest. -/
def constant (text : Text) : Int64 × Text :=
  let (value, rest) := digitsAtFront text
  (Int64.ofNat (min value largest), rest)

/-- The whole of a text as a number, with a sign or without, if there is such a number of 64 bits. -/
def number? (text : Text) : Option Int64 :=
  let read (most : Nat) (text : Text) : Option Nat :=
    match digitsAtFront text with
    | (value, []) => if text.head?.any Char.isDigit ∧ value ≤ most then some value else none
    | _ => none
  match text with
  | '-' :: rest => (read (largest + 1) rest).map fun n => Int64.ofInt (-(n : Int))
  | '+' :: rest => (read largest rest).map Int64.ofNat
  | text => (read largest text).map Int64.ofNat

/-- What a calculation has still to read, and what it has assigned, the latest first. -/
structure Reckoning where
  rest : Text
  assigned : List (Text × Int64) := []

abbrev Calculation := StateT Reckoning (Except ArithmeticError)

/-- A variable and the sign of an assignment at the front, with the operator that is in the sign. -/
def assignmentAt? (text : Text) : Option (Text × Option String × Text) :=
  let name := nameAtFront (dropSpaces text)
  let behind := dropSpaces ((dropSpaces text).drop name.length)
  if name = [] then none
  else match behind with
    | '=' :: '=' :: _ => none
    | '=' :: rest => some (name, none, rest)
    | _ => (assigningOperators.find? fun op => (op.toList ++ ['=']).isPrefixOf behind).map fun op =>
        (name, some op, behind.drop (op.length + 1))

/-- Whether a character comes next, which is then read. -/
def takeSign? (sign : Char) : Calculation Bool := do
  match dropSpaces (← get).rest with
  | c :: rest =>
    if c = sign then modify fun s => { s with rest }
    return c = sign
  | [] => return false

section Variables

variable (lookup : Text → Text)

/-- The value of a variable: nothing at all counts as zero. -/
def valueOf (name : Text) : Calculation Int64 := do
  match (← get).assigned.lookup name with
  | some value => return value
  | none =>
    let value := trimSpaces (lookup name)
    if value = [] then return 0
    match number? value with
    | some n => return n
    | none => throw (.illegalNumber (lookup name))

-- What is not `live` is read only: nothing in it is assigned, and nothing in it fails to be calculated.
mutual

def evalAssignment : Nat → Bool → Calculation Int64
  | 0, _ => throw .expectingPrimary
  | fuel + 1, live => do
    match assignmentAt? (← get).rest with
    | none => evalChoice fuel live
    | some (name, op?, rest) =>
      modify fun s => { s with rest }
      let value ← evalAssignment fuel live
      if ¬ live then return value
      let value ← match op? with
        | some op => applyOperator op (← valueOf lookup name) value
        | none => pure value
      modify fun s => { s with assigned := (name, value) :: s.assigned }
      return value

def evalChoice : Nat → Bool → Calculation Int64
  | 0, _ => throw .expectingPrimary
  | fuel + 1, live => do
    let condition ← evalLevel fuel live operatorLevels
    if ← takeSign? '?' then
      let positive ← evalAssignment fuel (live && condition ≠ 0)
      unless ← takeSign? ':' do throw .expectingColon
      let negative ← evalChoice fuel (live && condition = 0)
      return if condition ≠ 0 then positive else negative
    else return condition

def evalLevel : Nat → Bool → List (List String) → Calculation Int64
  | 0, _, _ => throw .expectingPrimary
  | fuel + 1, live, [] => evalAtom fuel live
  | fuel + 1, live, level :: levels => do
    let first ← evalLevel fuel live levels
    evalChain fuel live level levels first

def evalChain : Nat → Bool → List String → List (List String) → Int64 → Calculation Int64
  | 0, _, _, _, _ => throw .expectingPrimary
  | fuel + 1, live, level, levels, first => do
    match operatorAt? level (← get).rest with
    | none => return first
    | some (op, rest) =>
      modify fun s => { s with rest }
      let second ← evalLevel fuel (live && ¬ settles op first) levels
      let value ← if live then applyOperator op first second else pure second
      evalChain fuel live level levels value

def evalAtom : Nat → Bool → Calculation Int64
  | 0, _ => throw .expectingPrimary
  | fuel + 1, live => do
    let text := dropSpaces (← get).rest
    let continueWith (rest : Text) : Calculation Unit := modify fun s => { s with rest }
    match text with
    | '(' :: rest =>
      continueWith rest
      let value ← evalAssignment fuel live
      unless ← takeSign? ')' do throw .expectingParenthesis
      return value
    | '-' :: rest =>
      continueWith rest
      return - (← evalAtom fuel live)
    | '+' :: rest =>
      continueWith rest
      evalAtom fuel live
    | '~' :: rest =>
      continueWith rest
      return ~~~ (← evalAtom fuel live)
    | '!' :: rest =>
      continueWith rest
      return truth ((← evalAtom fuel live) = 0)
    | c :: _ =>
      let name := nameAtFront text
      if c.isDigit then
        let (value, rest) := constant text
        continueWith rest
        return value
      else if name = [] then throw .expectingPrimary
      else
        continueWith (text.drop name.length)
        if live then valueOf lookup name else return 0
    | [] => throw .expectingPrimary

end

end Variables

/-- The value of an arithmetic expression, and what it assigns, the latest first. -/
def evaluate (lookup : Text → Text) (expression : Text) :
    Except ArithmeticError (Int64 × List (Text × Int64)) := do
  let (value, s) ← (evalAssignment lookup (20 * expression.length + 20) true).run { rest := expression }
  if dropSpaces s.rest = [] then return (value, s.assigned) else throw .expectingEnd

end Unjar.Shell
