import Unjar.Shell.Machine.Variables
import Unjar.Shell.Permission

/-!
Conditions on texts, numbers and files, written as words.
-/

namespace Unjar.Shell

inductive ConditionToken where
  | ending
  | operand
  | unary (op : String)
  | binary (op : String)
  | negation
  | conjunction
  | disjunction
  | opening
  | closing
  deriving DecidableEq

def unaryConditions : List String :=
  ["-r", "-w", "-x", "-e", "-f", "-d", "-c", "-b", "-p", "-u", "-g", "-k", "-s", "-t", "-z", "-n", "-h", "-O", "-G", "-L",
    "-S"]

def binaryConditions : List String :=
  ["=", "!=", "<", ">", "-eq", "-ne", "-ge", "-gt", "-le", "-lt", "-nt", "-ot", "-ef"]

namespace Condition

def isBinary (word : Text) : Bool := binaryConditions.any (·.toList = word)

/-- What the first word of a condition is. An operator with one operand is none if it is an operand
itself. -/
def first : List Text → ConditionToken
  | [] => .ending
  | word :: rest =>
    let isOperand := match rest with
      | [] => true
      | [_] => false
      | second :: _ => isBinary second
    match unaryConditions.find? (·.toList = word) with
    | some op => if isOperand then .operand else .unary op
    | none =>
      match binaryConditions.find? (·.toList = word) with
      | some op => .binary op
      | none =>
        match word with
        | ['!'] => .negation
        | ['-', 'a'] => .conjunction
        | ['-', 'o'] => .disjunction
        | ['('] => if rest = [] then .operand else .opening
        | [')'] => .closing
        | _ => .operand

abbrev Judgement (α : Type) := Except String α

def number (text : Text) : Judgement Int :=
  match wholeNumber? text with
  | some n => .ok n
  | none => .error s!"Illegal number: {shown text}"

def isLink (fs : FileSystem) (p : Path) : Bool :=
  match fs.locateAdmitted .inspect p with
  | .ok l =>
    match fs.node? l with
    | some (.link _) => true
    | _ => false
  | .error _ => false

def nodeAt? (fs : FileSystem) (text : Text) : Option Node :=
  match fs.locateAdmitted .use (pathOf text) with
  | .ok l => fs.node? l
  | .error _ => none

def hasBit (bit : Nat) : Node → Bool
  | .file mode _ | .directory mode => mode &&& bit ≠ 0
  | _ => false

def judgeOne (fs : FileSystem) (op : String) (text : Text) : Bool :=
  let node? := nodeAt? fs text
  match op with
  | "-n" => text ≠ []
  | "-z" => text = []
  | "-e" | "-O" | "-G" => node?.isSome
  | "-r" => node?.any (Permission.nodeAllows FileSystem.readBit)
  | "-w" => node?.any (Permission.nodeAllows FileSystem.writeBit)
  | "-x" => node?.any fun node => ¬ node.isDevice && Permission.nodeAllows FileSystem.searchBit node
  | "-f" => node?.any Node.isFile
  | "-d" => node?.any Node.isDirectory
  | "-c" => node?.any Node.isDevice
  | "-u" => node?.any (hasBit 0o4000)
  | "-g" => node?.any (hasBit 0o2000)
  | "-k" => node?.any (hasBit 0o1000)
  | "-s" => node?.any fun node => match node with
    | .file _ data => data ≠ []
    | .directory _ => true
    | _ => false
  | "-L" | "-h" => isLink fs (pathOf text)
  | _ => false

/-- Whether two paths lead to one file. -/
def sameFile (fs : FileSystem) (a b : Text) : Bool :=
  match fs.locateAdmitted .use (pathOf a), fs.locateAdmitted .use (pathOf b) with
  | .ok l, .ok m => l = m
  | _, _ => false

def judgeTwo (fs : FileSystem) (op : String) (a b : Text) : Judgement Bool :=
  let compare (holds : Int → Int → Bool) : Judgement Bool := do
    let m ← number a
    let n ← number b
    return holds m n
  match op with
  | "=" => .ok (a = b)
  | "!=" => .ok (a ≠ b)
  | "<" => .ok (toOctets a < toOctets b)
  | ">" => .ok (toOctets b < toOctets a)
  | "-eq" => compare (· = ·)
  | "-ne" => compare (· ≠ ·)
  | "-ge" => compare (· ≥ ·)
  | "-gt" => compare (· > ·)
  | "-le" => compare (· ≤ ·)
  | "-lt" => compare (· < ·)
  | "-ef" => .ok (sameFile fs a b)
  | _ => .ok false

section Judging

variable (fs : FileSystem)

-- Each yields its value and the words from the last one that it used on.
mutual

def disjunction : Nat → ConditionToken → List Text → Judgement (Bool × List Text)
  | 0, _, words => .ok (false, words)
  | fuel + 1, token, words => do
    let (value, words) ← conjunction fuel token words
    if first words.tail = .disjunction then
      let rest := words.drop 2
      let (other, words) ← disjunction fuel (first rest) rest
      return (value || other, words)
    else return (value, words)

def conjunction : Nat → ConditionToken → List Text → Judgement (Bool × List Text)
  | 0, _, words => .ok (false, words)
  | fuel + 1, token, words => do
    let (value, words) ← negation fuel token words
    if first words.tail = .conjunction then
      let rest := words.drop 2
      let (other, words) ← conjunction fuel (first rest) rest
      return (value && other, words)
    else return (value, words)

def negation : Nat → ConditionToken → List Text → Judgement (Bool × List Text)
  | 0, _, words => .ok (false, words)
  | fuel + 1, token, words => do
    if token = .negation then
      let next := first words.tail
      let (value, words) ← negation fuel next (if next = .ending then words else words.tail)
      return (!value, words)
    else primary fuel token words

def primary : Nat → ConditionToken → List Text → Judgement (Bool × List Text)
  | 0, _, words => .ok (false, words)
  | fuel + 1, token, words => do
    match token with
    | .ending => return (false, words)
    | .opening =>
      let inside := words.tail
      if first inside = .closing then return (false, inside)
      let (value, words) ← disjunction fuel (first inside) inside
      if first words.tail = .closing then return (value, words.tail) else throw "closing paren expected"
    | .unary op =>
      match words.tail with
      | [] => throw s!"{op}: argument expected"
      | operand :: rest => return (judgeOne fs op operand, operand :: rest)
    | _ =>
      match words with
      | [] => return (false, [])
      | operand :: rest =>
        match first rest with
        | .binary op =>
          match rest.tail with
          | [] => throw s!"{op}: argument expected"
          | other :: rest => return (← judgeTwo fs op operand other, other :: rest)
        | _ => return (operand ≠ [], words)

end

/-- The verdict on the words from a token on. What is left over is out of place. -/
def judgeFrom (token : ConditionToken) (words : List Text) : Judgement Bool := do
  let (value, rest) ← disjunction fs (8 * words.length + 8) token words
  match rest with
  | last :: _ :: _ =>
    throw (if last = [] then "unexpected operator" else s!"{shown last}: unexpected operator")
  | _ => return value

/-- The verdict on a condition. Three or four words are read by their number first. -/
def judge : List Text → Judgement Bool
  | [] => .ok false
  | words =>
    let isParenthesized := words.head? = some ['('] ∧ words.getLast? = some [')']
    let plain (words : List Text) := judgeFrom fs (first words) words
    match words with
    | [a, op, b] =>
      if isBinary op then judgeFrom fs .operand words
      else if isParenthesized then plain [op]
      else if a = ['!'] then (judge [op, b]).map (!·)
      else plain words
    | [a, b, c, d] =>
      if isParenthesized then plain [b, c]
      else if a = ['!'] then (judge [b, c, d]).map (!·)
      else plain words
    | words => plain words

end Judging

end Condition

end Unjar.Shell
