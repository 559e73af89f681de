import Unjar.Shell.Regex.Reader
import Unjar.Shell.Utility.Ordering

/-!
The program that works out expressions whose parts are its arguments.
-/

namespace Unjar.Shell

/-- The arguments that are still to be read. -/
abbrev Terms := StateT (List Text) Eval

namespace Terms

/-- An operator with two operands. -/
structure Operator where
  name : String
  apply : (self a b : Text) → Eval Text

def isZero (value : Text) : Bool :=
  let digits := if value.head? = some '-' then value.tail else value
  value = [] || (digits ≠ [] && digits.all (· = '0'))

def number? (value : Text) : Option Int :=
  if value.head? = some '+' then none else integer? value

def withNumbers (self a b : Text) (f : Int → Int → Eval Int) : Eval Text :=
  match number? a, number? b with
  | some m, some n => signedDecimalOf <$> f m n
  | _, _ => giveUp self 2 "non-integer argument"

def sum (name : String) (f : Int → Int → Int) : Operator :=
  { name, apply := fun self a b => withNumbers self a b fun m n => pure (f m n) }

def quotient (name : String) (f : Int → Int → Int) : Operator where
  name
  apply self a b := withNumbers self a b fun m n =>
    if n = 0 then giveUp self 2 "division by zero" else pure (f m n)

def relation (name : String) (holds : Ordering → Bool) : Operator where
  name
  apply _ a b :=
    let order := match number? a, number? b with
      | some m, some n => compare m n
      | _, _ => KeyOrder.compareTexts a b
    pure (if holds order then ['1'] else ['0'])

/-- What a regular expression matches at the front: its first group, or how much that is. -/
def matched (self text pattern : Text) : Eval Text :=
  match Regex.ofText false pattern with
  | .error message => giveUp self 2 message
  | .ok r =>
    let found := (r.ends {} { rest := text }).head?
    if r.groupCount = 0 then pure (decimalOf ((found.map (·.place)).getD 0))
    else pure ((found.bind (·.groups.lookup 1)).getD [])

/-- The operators, those that bind least first. -/
def operators : List (List Operator) :=
  [[⟨"|", fun _ a b => pure (if ¬ isZero a then a else if b = [] then ['0'] else b)⟩],
    [⟨"&", fun _ a b => pure (if isZero a ∨ isZero b then ['0'] else a)⟩],
    [relation "<" (· = .lt), relation "<=" (· ≠ .gt), relation "=" (· = .eq), relation "==" (· = .eq),
      relation "!=" (· ≠ .eq), relation ">=" (· ≠ .lt), relation ">" (· = .gt)],
    [sum "+" (· + ·), sum "-" (· - ·)],
    [sum "*" (· * ·), quotient "/" Int.tdiv, quotient "%" Int.tmod],
    [⟨":", matched⟩]]

def next (self before : Text) : Terms Text := do
  match ← get with
  | [] => giveUp self 2 s!"syntax error: missing argument after {quoted before}"
  | term :: rest =>
    set rest
    return term

mutual

/-- An expression of operators from some on. -/
def expression (self : Text) : Nat → Text → List (List Operator) → Terms Text
  | 0, before, _ => next self before
  | fuel + 1, before, [] => operand self fuel before
  | fuel + 1, before, level :: tighter => do
    let first ← expression self fuel before tighter
    more self fuel level tighter first

/-- The operands behind the first one. -/
def more (self : Text) : Nat → List Operator → List (List Operator) → Text → Terms Text
  | 0, _, _, value => return value
  | fuel + 1, level, tighter, value => do
    match ← get with
    | [] => return value
    | sign :: rest =>
      match level.find? fun operator => operator.name.toList = sign with
      | none => return value
      | some operator =>
        set rest
        let other ← expression self fuel sign tighter
        let value ← operator.apply self value other
        more self fuel level tighter value

def operand (self : Text) : Nat → Text → Terms Text
  | 0, before => next self before
  | fuel + 1, before => do
    let term ← next self before
    let part : Terms Text := operand self fuel term
    match shown term with
    | "+" => next self term
    | "(" =>
      let value ← expression self fuel term operators
      match ← get with
      | [')'] :: rest =>
        set rest
        return value
      | [] => giveUp self 2 s!"syntax error: expecting ')' after {quoted value}"
      | other :: _ => giveUp self 2 s!"syntax error: expecting ')' instead of {quoted other}"
    | ")" => giveUp self 2 "syntax error: unexpected ')'"
    | "length" => do return decimalOf (← part).length
    | "match" => do
      let text ← part
      let pattern ← part
      matched self text pattern
    | "index" => do
      let text ← part
      let chars ← part
      return decimalOf (((text.findIdx? chars.contains).map (· + 1)).getD 0)
    | "substr" => do
      let text ← part
      let start ← part
      let size ← part
      match number? start, number? size with
      | some start, some size =>
        return if start ≤ 0 ∨ size ≤ 0 then [] else (text.drop (start.toNat - 1)).take size.toNat
      | _, _ => return []
    | _ => return term

end

end Terms

def evaluateTerms : Utility := fun self arguments => do
  let terms := if arguments.head? = some ['-', '-'] then arguments.tail else arguments
  if terms = [] then missingOperand self 2
  let (value, rest) ← (Terms.expression self (16 * terms.length + 16) [] Terms.operators).run terms
  match rest with
  | term :: _ => giveUp self 2 s!"syntax error: unexpected argument {quoted term}"
  | [] =>
    emitLine self value
    setStatus (if Terms.isZero value then 1 else 0)

end Unjar.Shell
