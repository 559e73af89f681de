import Unjar.Shell.Pattern
import Unjar.Shell.Starting.Basic
import Unjar.Shell.Utility.Listing
import Unjar.Shell.Utility.Removal

/-!
The program that walks through directories and does something with what it finds there.
-/

namespace Unjar.Shell

namespace Finding

inductive Action where
  | always
  | never
  | named (pattern : Pattern)
  | namedAnyCase (pattern : Pattern)
  | onPath (pattern : Pattern)
  | ofKind (letters : Text)
  | empty
  | withMode (mode : Nat)
  /-- How a number compares with the size in units, which is counted up to the next whole one. -/
  | sized (order : Ordering) (number unit : Nat)
  | show (ending : Char)
  | showAs (format : Text)
  | delete
  | prune
  | quit
  | run (words : List Text)
  | runForAll (words : List Text)
  | negated (action : Action)
  | both (first second : Action)
  | either (first second : Action)
  | oneAfterOther (first second : Action)

/-- Whether something is done, and not only looked at. -/
def Action.acts : Action → Bool
  | .show _ | .showAs _ | .delete | .run _ | .runForAll _ | .quit => true
  | .negated a => a.acts
  | .both a b | .either a b | .oneAfterOther a b => a.acts || b.acts
  | _ => false

def Action.deletes : Action → Bool
  | .delete => true
  | .negated a => a.deletes
  | .both a b | .either a b | .oneAfterOther a b => a.deletes || b.deletes
  | _ => false

/-- What is said about the walk as a whole. -/
structure Walk where
  least : Nat := 0
  most : Option Nat := none
  contentsFirst : Bool := false
  followsLinks : Bool := false

/-- The words that are still to be read. -/
structure Reading where
  words : List Text
  walk : Walk := {}

abbrev Parse := StateT Reading Eval

def patternOf (text : Text) : Pattern :=
  let rec chars : Text → List PatternChar
    | '\\' :: c :: rest => ⟨c, true⟩ :: chars rest
    | c :: rest => ⟨c, false⟩ :: chars rest
    | [] => []
  Pattern.ofChars (chars text)

def next? : Parse (Option Text) := do
  match (← get).words with
  | [] => return none
  | word :: words =>
    modify fun r => { r with words }
    return some word

/-- The argument of a word. -/
def argumentOf (self word : Text) : Parse Text := do
  match ← next? with
  | some argument => return argument
  | none => giveUp self 1 s!"missing argument to `{shown word}'"

def numberOf (self word : Text) : Parse Nat := do
  let text ← argumentOf self word
  if text = [] ∨ ¬ text.all Char.isDigit then
    giveUp self 1 s!"Expected a positive decimal integer argument to {shown word}, but got {quoted text}"
  return valueIn 10 text

/-- The words of a program up to their end, and whether it is run for all names at once. -/
def programWords (self word : Text) : Nat → List Text → Parse (List Text × Bool)
  | 0, soFar => return (soFar.reverse, false)
  | fuel + 1, soFar => do
    match ← next? with
    | none => giveUp self 1 s!"missing argument to `{shown word}'"
    | some [';'] => return (soFar.reverse, false)
    | some ['+'] =>
      if soFar.head? = some ['\x7b', '\x7d'] then return (soFar.tail.reverse, true)
      else programWords self word fuel (['+'] :: soFar)
    | some other => programWords self word fuel (other :: soFar)

def sizeOf (self text : Text) : Parse Action := do
  let (order, rest) := match text with
    | '+' :: rest => (Ordering.gt, rest)
    | '-' :: rest => (Ordering.lt, rest)
    | rest => (Ordering.eq, rest)
  let digits := rest.takeWhile Char.isDigit
  let unit? : Option Nat := match shown (rest.drop digits.length) with
    | "" | "b" => some 512
    | "c" => some 1
    | "w" => some 2
    | "k" => some 1024
    | "M" => some 1048576
    | "G" => some 1073741824
    | _ => none
  match unit? with
  | some unit => if digits ≠ [] then return .sized order (valueIn 10 digits) unit
  | none => pure ()
  giveUp self 1 s!"Invalid argument `{shown text}' to -size"

mutual

def alternatives (self : Text) : Nat → Parse Action
  | 0 => return .always
  | fuel + 1 => do
    let first ← conjunction self fuel none
    match (← get).words with
    | word :: words =>
      if shown word = "-o" ∨ shown word = "-or" then
        modify fun r => { r with words }
        return .either first (← alternatives self fuel)
      else if shown word = "," then
        modify fun r => { r with words }
        return .oneAfterOther first (← alternatives self fuel)
      else return first
    | [] => return first

def conjunction (self : Text) : Nat → Option Action → Parse Action
  | 0, soFar => return soFar.getD .always
  | fuel + 1, soFar => do
    match (← get).words with
    | [] => return soFar.getD .always
    | word :: words =>
      match shown word with
      | "-o" | "-or" | "," | ")" =>
        match soFar with
        | some action => return action
        | none => giveUp self 1 s!"invalid expression; you have used a binary operator '{shown word}' with nothing before it."
      | "-a" | "-and" =>
        modify fun r => { r with words }
        conjunction self fuel soFar
      | _ =>
        let part ← primary self fuel
        conjunction self fuel (some (match soFar with
          | some action => .both action part
          | none => part))

def primary (self : Text) : Nat → Parse Action
  | 0 => return .always
  | fuel + 1 => do
    let word := (← next?).getD []
    match shown word with
    | "!" | "-not" => return .negated (← primary self fuel)
    | "(" =>
      let inner ← alternatives self fuel
      match ← next? with
      | some [')'] => return inner
      | _ => giveUp self 1 "invalid expression; I was expecting to find a ')' somewhere but did not see one."
    | "-name" => return .named (patternOf (← argumentOf self word))
    | "-iname" => return .namedAnyCase (patternOf ((← argumentOf self word).map Char.toLower))
    | "-path" | "-wholename" => return .onPath (patternOf (← argumentOf self word))
    | "-type" => return .ofKind ((← argumentOf self word).filter (· ≠ ','))
    | "-empty" => return .empty
    | "-true" => return .always
    | "-false" => return .never
    | "-perm" => return .withMode (valueIn 8 (← argumentOf self word))
    | "-size" => do
      let text ← argumentOf self word
      sizeOf self text
    | "-print" => return .show '\n'
    | "-print0" => return .show '\x00'
    | "-printf" => return .showAs (← argumentOf self word)
    | "-delete" =>
      modify fun r => { r with walk := { r.walk with contentsFirst := true } }
      return .delete
    | "-prune" => return .prune
    | "-quit" => return .quit
    | "-depth" =>
      modify fun r => { r with walk := { r.walk with contentsFirst := true } }
      return .always
    | "-maxdepth" =>
      let most ← numberOf self word
      modify fun r => { r with walk := { r.walk with most } }
      return .always
    | "-mindepth" =>
      let least ← numberOf self word
      modify fun r => { r with walk := { r.walk with least } }
      return .always
    | "-xdev" | "-mount" | "-noleaf" | "-follow" => return .always
    | "-exec" => do
      let (words, forAll) ← programWords self word ((← get).words.length + 1) []
      return if forAll then .runForAll words else .run words
    | _ =>
      if word.head? = some '-' then giveUp self 1 s!"unknown predicate `{shown word}'"
      else giveUp self 1 s!"paths must precede expression: `{shown word}'"

end

/-- What was found so far on the walk. -/
structure Progress where
  /-- The programs that are run once for all names, with the names. -/
  batches : List (List Text × List Text) := []
  isPruned : Bool := false
  isOver : Bool := false

abbrev Search := StateT Progress Eval

/-- A thing that was found. -/
structure Found where
  name : Text
  l : Location
  node : Node

def kindOf : Node → Char
  | .directory _ => 'd'
  | .file .. => 'f'
  | .link _ => 'l'
  | .device _ => 'c'

def sizeIn : Node → Nat
  | .file _ data => data.length
  | .link target => target.text.length
  | .directory _ => 4096
  | .device _ => 0

/-- A format with what it says about something found. -/
def formatted (f : Found) : Text → Text
  | '%' :: letter :: rest =>
    (match letter with
      | 'p' => f.name
      | 'f' => baseName f.name
      | 'h' => directoryName f.name
      | 's' => decimalOf (sizeIn f.node)
      | 'm' => Nat.toDigits 8 (modeOf f.node)
      | 'y' => [kindOf f.node]
      | '%' => ['%']
      | c => ['%', c]) ++ formatted f rest
  | '\\' :: letter :: rest =>
    (match letter with
      | 'n' => ['\n']
      | 't' => ['\t']
      | '0' => ['\x00']
      | '\\' => ['\\']
      | c => ['\\', c]) ++ formatted f rest
  | c :: rest => c :: formatted f rest
  | [] => []

/-- Does an action on something found, and tells whether it holds. -/
def perform (s : Starting) (self : Text) (f : Found) : Action → Search Bool
  | .always => return true
  | .never => return false
  | .named p => return p.accepts (baseName f.name)
  | .namedAnyCase p => return p.accepts ((baseName f.name).map Char.toLower)
  | .onPath p => return p.accepts f.name
  | .ofKind letters => return letters.contains (kindOf f.node)
  | .empty => do
    let fs ← getFiles
    return match f.node with
      | .directory _ => (fs.entriesAt f.l).isEmpty
      | .file _ data => data.isEmpty
      | _ => false
  | .withMode mode => return modeOf f.node = mode
  | .sized order number unit => return compare ((sizeIn f.node + unit - 1) / unit) number = order
  | .show ending => do
    emit self (toOctets (f.name ++ [ending]))
    return true
  | .showAs format => do
    emit self (toOctets (formatted f format))
    return true
  | .delete => do
    let fs ← getFiles
    if f.name = ['.'] then return true
    if (fs.entriesAt f.l).isEmpty ∧ Permission.mayRemove fs f.l then
      takeAway f.l
      return true
    else
      let fault : Fault := if (fs.entriesAt f.l).isEmpty then .permissionDenied else .notEmpty
      fails self s!"cannot delete {quoted f.name}: {fault.reason}"
      return false
  | .prune => do
    modify fun p => { p with isPruned := true }
    return true
  | .quit => do
    modify fun p => { p with isOver := true }
    return true
  | .run words => do
    let before := (← getProcess).status
    let command := words.map fun word => withName word (word.length + 1)
    let status ← s.statusOf self command
    setStatus before
    return status = 0
  | .runForAll words => do
    let names := ((← get).batches.lookup words).getD []
    modify fun p => { p with batches := (words, names ++ [f.name]) :: p.batches.filter (·.1 ≠ words) }
    return true
  | .negated action => do return !(← perform s self f action)
  | .both first second => do
    if ← perform s self f first then perform s self f second else return false
  | .either first second => do
    if ← perform s self f first then return true else perform s self f second
  | .oneAfterOther first second => do
    let _ ← perform s self f first
    perform s self f second
where
  /-- A word with the name in the place of braces. -/
  withName : Text → Nat → Text
    | '\x7b' :: '\x7d' :: rest, fuel + 1 => f.name ++ withName rest fuel
    | c :: rest, fuel + 1 => c :: withName rest fuel
    | text, _ => text

/-- Walks through what is at a location. -/
def walk (s : Starting) (self : Text) (w : Walk) (action : Action) : Nat → Nat → Text → Location → Search Unit
  | 0, _, _, _ => return
  | fuel + 1, depth, name, l => do
    if (← get).isOver then return
    let fs ← getFiles
    match fs.node? l with
    | none => return
    | some node =>
      modify fun p => { p with isPruned := false }
      let act : Search Unit := do
        if w.least ≤ depth ∧ ¬ (← get).isOver then
          let _ ← perform s self { name, l, node } action
      unless w.contentsFirst do act
      let descends := node.isDirectory ∧ w.most.all (depth < ·) ∧ ¬ ((← get).isPruned ∧ ¬ w.contentsFirst)
      if descends ∧ ¬ (← get).isOver then
        if fs.permits FileSystem.readBit l then
          for (entry, _) in (← getFiles).entriesAt l do
            walk s self w action fuel (depth + 1) (childOf name (ofOctets entry)) (l ++ [entry])
        else fails self s!"{quoted name}: {Fault.reason .permissionDenied}"
      if w.contentsFirst then act

end Finding

open Finding in
def findFiles (s : Starting) : Utility := fun self arguments => do
  setStatus 0
  let flags := arguments.takeWhile fun word => word = "-H".toList ∨ word = "-L".toList ∨ word = "-P".toList
  let arguments := arguments.drop flags.length
  let isOperand (word : Text) : Bool := ¬ (word.head? = some '-' ∧ 1 < word.length) ∧ word ≠ ['!'] ∧ word ≠ ['(']
  let operands := arguments.takeWhile isOperand
  let words := arguments.drop operands.length
  let (action, reading) ← (alternatives self (8 * words.length + 8)).run { words }
  match reading.words with
  | word :: _ =>
    if word = [')'] then giveUp self 1 "invalid expression; you have too many ')'"
    else giveUp self 1 s!"paths must precede expression: `{shown word}'"
  | [] => pure ()
  let action := if words = [] then .show '\n' else if action.acts then action else .both action (.show '\n')
  let mut progress : Progress := {}
  for name in if operands = [] then [['.']] else operands do
    let fs ← getFiles
    let purpose := if flags.getLast?.any fun flag => flag ≠ "-P".toList then Purpose.use else .inspect
    match fs.locateAdmitted purpose (pathOf name) with
    | .error fault => fails self s!"{quoted name}: {fault.reason}"
    | .ok l =>
      let (_, after) ← (Finding.walk s self reading.walk action (fs.nodes.length + 2) 0 name l).run progress
      progress := after
  for (words, names) in progress.batches.reverse do
    let before := (← getProcess).status
    let status ← s.statusOf self (words ++ names)
    setStatus (if status = 0 then before else 1)

end Unjar.Shell
