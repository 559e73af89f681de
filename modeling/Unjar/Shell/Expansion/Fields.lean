import Unjar.Shell.Pattern

/-!
What a word becomes before it is split: pieces, in segments that say how they are split.
-/

namespace Unjar.Shell

inductive Piece where
  | char (c : Char) (quoted : Bool)
  /-- Something was quoted here, if only nothing. -/
  | mark
  /-- The place between two arguments. -/
  | gap
  deriving DecidableEq

inductive Splitting where
  | whole
  /-- At separators. -/
  | fields
  /-- Between arguments only. -/
  | arguments
  deriving DecidableEq

structure Segment where
  splitting : Splitting
  pieces : List Piece

def piecesOf (quoted : Bool) (text : Text) : List Piece :=
  text.map fun c => .char c quoted

def textOfPieces (pieces : List Piece) : Text :=
  pieces.filterMap fun piece => match piece with
    | .char c _ => some c
    | _ => none

def textOfSegments (segments : List Segment) : Text :=
  segments.flatMap fun s => textOfPieces s.pieces

/-- The text up to the first place between two arguments. -/
def frontText (pieces : List Piece) : Text := textOfPieces (pieces.takeWhile (· ≠ .gap))

/-- The places between pieces, and those at both ends. -/
def placesIn (pieces : List Piece) : List Nat := List.range (pieces.length + 1)

/-- Pieces without what a pattern takes away from the front, the least or the most. The first argument alone
decides whether it fits. -/
def Pattern.trimFront (p : Pattern) (longest : Bool) (pieces : List Piece) : List Piece :=
  let places := if longest then (placesIn pieces).reverse else placesIn (pieces.takeWhile (· ≠ .gap))
  pieces.drop ((places.find? fun n => p.accepts (frontText (pieces.take n))).getD 0)

/-- Pieces without what a pattern takes away from the end, the least or the most. What stands between the
place and the next argument decides whether it fits, and all that follows is taken away. -/
def Pattern.trimBack (p : Pattern) (longest : Bool) (pieces : List Piece) : List Piece :=
  let places := if longest then placesIn (pieces.takeWhile (· ≠ .gap)) else (placesIn pieces).reverse
  pieces.take ((places.find? fun n => p.accepts (frontText (pieces.drop n))).getD pieces.length)

/-- Pieces as a pattern: what is quoted stands for itself, and so does what is behind a backslash. -/
def patternChars : List Piece → List PatternChar
  | [] => []
  | .char '\\' false :: .char c _ :: rest => ⟨c, true⟩ :: patternChars rest
  | .char '\\' false :: rest => ⟨'\\', true⟩ :: patternChars rest
  | .char c quoted :: rest => ⟨c, quoted⟩ :: patternChars rest
  | _ :: rest => patternChars rest

/-- What is known while fields are made. -/
structure Splitter where
  /-- The field at hand, the latest piece first. -/
  field : List Piece := []
  done : List (List Piece) := []
  /-- Whether the last field was ended by blanks, which may go on. -/
  inBlanks : Bool := false
  /-- Whether the segment before was split between arguments only. -/
  afterArguments : Bool := false
  lastIsArguments : Bool := false
  /-- How many more fields there may be, if that is limited. -/
  remaining : Option Nat := none
  /-- How much of the last field stays if nothing follows but what ends it. -/
  cut : Option Nat := none

def isDefaultSeparator (c : Char) : Bool := c == ' ' || c == '\t' || c == '\n'

namespace Splitter

def put (s : Splitter) (piece : Piece) : Splitter := { s with field := piece :: s.field }

def endField (s : Splitter) : Splitter := { s with done := s.field.reverse :: s.done, field := [] }

/-- The last field takes what is left, but for blanks at its end and the separator that would end it. -/
def intoLast (s : Splitter) (piece : Piece) (separates isDefault : Bool) : Splitter :=
  let after := s.put piece
  if isDefault then { after with cut := some (s.cut.getD s.field.length) }
  else { after with cut := if separates && s.inBlanks then s.cut else none, inBlanks := false }

def step (separators : Text) (splitting : Splitting) (s : Splitter) (piece : Piece) : Splitter :=
  let (separates, isDefault) := match piece with
    | .gap => (true, true)
    | .char c _ =>
      let separates := splitting = Splitting.fields && separators.contains c
      (separates, separates && isDefaultSeparator c)
    | .mark => (false, false)
  if s.remaining = some 0 then s.intoLast piece separates isDefault
  else if s.inBlanks ∧ separates then { s with field := [], inBlanks := isDefault }
  else if s.inBlanks then { s with field := [piece], inBlanks := false }
  else if ¬ separates then s.put piece
  else
    let opensBlanks := isDefault && !s.afterArguments && splitting = Splitting.fields
    if s.field = [] ∧ opensBlanks then s
    else match s.remaining with
      | some 1 => { s.put piece with remaining := some 0, cut := some s.field.length, inBlanks := opensBlanks }
      | remaining => { s.endField with remaining := remaining.map (· - 1), inBlanks := opensBlanks }

def segment (separators : Text) (s : Splitter) (segment : Segment) : Splitter :=
  match segment.splitting with
  | .whole => { s with field := segment.pieces.reverse ++ s.field }
  | splitting =>
    let s := { s with
      inBlanks := false
      afterArguments := s.lastIsArguments
      lastIsArguments := splitting = .arguments }
    segment.pieces.foldl (step separators splitting) s

def finish (s : Splitter) : List (List Piece) :=
  let field := match s.cut with
    | some n => s.field.reverse.take n
    | none => s.field.reverse
  let isThere := s.lastIsArguments ∨ field ≠ []
  (if isThere then field :: s.done else s.done).reverse

end Splitter

/-- The fields of what a word became, at most so many if that is limited. -/
def fieldsOfSegments (separators : Text) (limit : Option Nat) (segments : List Segment) : List (List Piece) :=
  (segments.foldl (Splitter.segment separators) { remaining := limit }).finish

end Unjar.Shell
