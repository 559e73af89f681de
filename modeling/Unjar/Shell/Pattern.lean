import Unjar.Shell.CharClass

/-!
Patterns for names and values. What was quoted in a pattern stands for itself.
-/

namespace Unjar.Shell

structure PatternChar where
  char : Char
  /-- Whether the character stands for itself. -/
  literal : Bool
  deriving DecidableEq

/-- One of the things that a bracket expression lists. -/
inductive Member where
  | range (first last : Char)
  | ofClass (k : CharClass)

def Member.contains (c : Char) : Member → Bool
  | range first last => first ≤ c && c ≤ last
  | ofClass k => k.contains c

inductive PatternItem where
  | exactly (c : Char)
  | any
  | run
  | oneOf (negated : Bool) (members : List Member)

abbrev Pattern := List PatternItem

def isActive (c : Char) (p : PatternChar) : Bool := p.char = c && !p.literal

/-- The characters up to the first one that stands for itself. -/
def activeText (chars : List PatternChar) : Text :=
  (chars.takeWhile (!·.literal)).map (·.char)

/-- The members of a bracket expression and what follows it, if it is closed. -/
def bracket : Nat → Bool → List PatternChar → Option (List Member × List PatternChar)
  | 0, _, _ => none
  | _, _, [] => none
  | fuel + 1, isFirst, c :: rest =>
    let goOn (member : Member) (rest : List PatternChar) :=
      (bracket fuel false rest).map fun (members, after) => (member :: members, after)
    if isActive ']' c ∧ ¬ isFirst then some ([], rest)
    else match if isActive '[' c then CharClass.atFront? (activeText rest) else none with
      | some (k, _) => goOn (.ofClass k) (rest.drop (k.name.length + 3))
      | none =>
        match rest with
        | dash :: last :: after =>
          if isActive '-' dash ∧ ¬ isActive ']' last then goOn (.range c.char last.char) after
          else goOn (.range c.char c.char) rest
        | rest => goOn (.range c.char c.char) rest

def patternFrom : Nat → List PatternChar → Pattern
  | 0, _ => []
  | _, [] => []
  | fuel + 1, c :: rest =>
    let alone := PatternItem.exactly c.char :: patternFrom fuel rest
    if isActive '*' c then .run :: patternFrom fuel rest
    else if isActive '?' c then .any :: patternFrom fuel rest
    else if isActive '[' c then
      let negated := rest.head?.any (isActive '!')
      match bracket (rest.length + 1) true (if negated then rest.tail else rest) with
      | some (members, after) => .oneOf negated members :: patternFrom fuel after
      | none => alone
    else alone

def Pattern.ofChars (chars : List PatternChar) : Pattern :=
  patternFrom chars.length chars

def PatternItem.accepts (c : Char) : PatternItem → Bool
  | exactly d => c == d
  | any | run => true
  | oneOf negated members => members.any (·.contains c) != negated

/-- Tries a run at every length, the shortest first. -/
def matchRun (accepts : Text → Bool) : Text → Bool
  | [] => accepts []
  | c :: rest => accepts (c :: rest) || matchRun accepts rest

def Pattern.accepts : Pattern → Text → Bool
  | [], text => text.isEmpty
  | [.run], _ => true
  | .run :: items, text => matchRun (Pattern.accepts items) text
  | _ :: _, [] => false
  | item :: items, c :: rest => item.accepts c && Pattern.accepts items rest

/-- Whether a pattern may stand for anything but itself. A bracket counts only if it is closed. -/
def isPattern : List PatternChar → Bool
  | [] => false
  | c :: rest =>
    isActive '*' c || isActive '?' c ||
      (isActive '[' c && (bracket (rest.length + 1) true (if rest.head?.any (isActive '!') then rest.tail else rest)).isSome) ||
      isPattern rest

end Unjar.Shell
