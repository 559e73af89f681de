import Unjar.Shell.Pattern

/-!
Regular expressions, and where they match. Of the matches that start first the longest counts.
-/

namespace Unjar.Shell

/-- Where words start and end. -/
inductive WordEdge where
  | first
  | last
  | either
  | neither

inductive Regex where
  | nothing
  | exactly (c : Char)
  | any
  | oneOf (negated : Bool) (members : List Member)
  | lineStart
  | lineEnd
  | wordEdge (kind : WordEdge)
  | group (number : Nat) (inner : Regex)
  /-- What a group matched, once more. -/
  | again (number : Nat)
  | followed (first second : Regex)
  | either (first second : Regex)
  | repeated (inner : Regex) (least : Nat) (most : Option Nat)

namespace Regex

/-- A place in a text, and what the groups matched on the way there. -/
structure Cursor where
  place : Nat := 0
  before : Option Char := none
  rest : Text
  groups : List (Nat × Text) := []

/-- How characters are compared, and where lines end. -/
structure Mode where
  ignoresCase : Bool := false
  manyLines : Bool := false

namespace Cursor

def advance (c : Cursor) : Option (Char × Cursor) :=
  match c.rest with
  | [] => none
  | d :: rest => some (d, { c with place := c.place + 1, before := some d, rest })

/-- The cursors at different places, each with the first way there, the farthest first. -/
def distinct (cursors : List Cursor) : List Cursor :=
  let kept := cursors.foldl (fun kept c => if kept.any fun k => k.place = c.place then kept else c :: kept) []
  kept.reverse.mergeSort fun a b => b.place ≤ a.place

def isWordChar (c : Option Char) : Bool := c.any isNamePart

/-- Goes over a text that comes next. -/
def skipText (same : Char → Char → Bool) (c : Cursor) : Text → Option Cursor
  | [] => some c
  | d :: text =>
    match c.advance with
    | some (e, after) => if same d e then skipText same after text else none
    | none => none

end Cursor

def sameChar (m : Mode) (a b : Char) : Bool := a = b || (m.ignoresCase && a.toLower = b.toLower)

def memberOf (m : Mode) (members : List Member) (c : Char) : Bool :=
  members.any (·.contains c) ||
    (m.ignoresCase && (members.any (·.contains c.toLower) || members.any (·.contains c.toUpper)))

/-- Goes on by steps from some places to others that were not seen yet. -/
def spread (step : Cursor → List Cursor) : Nat → Option Nat → List Cursor → List Cursor → List Cursor
  | 0, _, seen, _ | _, some 0, seen, _ | _, _, seen, [] => seen
  | fuel + 1, most, seen, edge =>
    let isNew (c : Cursor) : Bool := ¬ seen.any fun s => s.place = c.place
    let next := Cursor.distinct ((edge.flatMap step).filter isNew)
    spread step fuel (most.map (· - 1)) (seen ++ next) next

/-- Takes so many steps. -/
def steps (step : Cursor → List Cursor) : Nat → List Cursor → List Cursor
  | 0, edge => edge
  | count + 1, edge => steps step count (Cursor.distinct (edge.flatMap step))

/-- The places that can be reached, the farthest first. -/
def ends (m : Mode) : Regex → Cursor → List Cursor
  | nothing, c => [c]
  | exactly d, c =>
    match c.advance with
    | some (e, after) => if sameChar m d e then [after] else []
    | none => []
  | any, c => (c.advance.map Prod.snd).toList
  | oneOf negated members, c =>
    match c.advance with
    | some (d, after) => if memberOf m members d != negated then [after] else []
    | none => []
  | lineStart, c => if c.before.isNone || (m.manyLines && c.before = some '\n') then [c] else []
  | lineEnd, c => if c.rest = [] || (m.manyLines && c.rest.head? = some '\n') then [c] else []
  | wordEdge kind, c =>
    let (left, right) := (Cursor.isWordChar c.before, Cursor.isWordChar c.rest.head?)
    let holds := match kind with
      | .first => !left && right
      | .last => left && !right
      | .either => left != right
      | .neither => left = right
    if holds then [c] else []
  | group number inner, c =>
    (ends m inner c).map fun after =>
      let text := c.rest.take (after.place - c.place)
      { after with groups := (number, text) :: after.groups.filter (·.1 ≠ number) }
  | again number, c =>
    match c.groups.lookup number with
    | some text => (c.skipText (sameChar m) text).toList
    | none => []
  | followed first second, c => Cursor.distinct ((ends m first c).flatMap (ends m second))
  | either first second, c => Cursor.distinct (ends m first c ++ ends m second c)
  | repeated inner least most, c =>
    let started := steps (ends m inner) least [c]
    Cursor.distinct (spread (ends m inner) (c.rest.length + 1) (most.map (· - least)) started started)

/-- A part of a text that is matched. -/
structure Match where
  start : Nat
  before : Option Char
  text : Text
  groups : List (Nat × Text)
  rest : Text

/-- The first match from a place on, among those whose start and end are accepted. -/
def searchWhere (accepts : Cursor → Cursor → Bool) (m : Mode) (r : Regex) (place : Nat) (before : Option Char)
    (text : Text) : Option Match :=
  let start : Cursor := { place, before, rest := text }
  match (ends m r start).find? (accepts start) with
  | some last =>
    some { start := place, before, text := text.take (last.place - place), groups := last.groups, rest := last.rest }
  | none =>
    match text with
    | [] => none
    | c :: rest => searchWhere accepts m r (place + 1) (some c) rest

def search (m : Mode) (r : Regex) (place : Nat) (before : Option Char) (text : Text) : Option Match :=
  searchWhere (fun _ _ => true) m r place before text

/-- Whether a match is a word of its own. -/
def isWholeWord (first last : Cursor) : Bool :=
  !Cursor.isWordChar first.before && !Cursor.isWordChar last.rest.head?

def isWholeLine (first last : Cursor) : Bool := first.place = 0 && last.rest.isEmpty

def isFoundIn (m : Mode) (r : Regex) (text : Text) : Bool := (search m r 0 none text).isSome

/-- The matches in a text that do not overlap, up to so many. An empty one right behind another one does
not count. -/
def searchAll (accepts : Cursor → Cursor → Bool) (m : Mode) (r : Regex) :
    Nat → Nat → Option Char → Option Nat → Text → List Match
  | 0, _, _, _, _ => []
  | fuel + 1, place, before, lastEnd, text =>
    match searchWhere accepts m r place before text with
    | none => []
    | some found =>
      let stop := found.start + found.text.length
      let isKept := found.text ≠ [] ∨ lastEnd ≠ some found.start
      let more :=
        if found.text ≠ [] then
          searchAll accepts m r fuel stop found.text.getLast? (some stop) found.rest
        else match found.rest with
          | [] => []
          | c :: rest => searchAll accepts m r fuel (stop + 1) (some c) lastEnd rest
      if isKept then found :: more else more

def allMatches (accepts : Cursor → Cursor → Bool) (m : Mode) (r : Regex) (text : Text) : List Match :=
  searchAll accepts m r (text.length + 2) 0 none none text

/-- How many groups there are. -/
def groupCount : Regex → Nat
  | group number inner => max number (groupCount inner)
  | followed a b | either a b => max (groupCount a) (groupCount b)
  | repeated inner _ _ => groupCount inner
  | _ => 0

end Regex

end Unjar.Shell
