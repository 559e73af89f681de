import Unjar.Shell.Regex.Basic

/-!
Editing scripts: instructions for the lines of a text, each with the places where it counts.
-/

namespace Unjar.Shell.Editing

/-- What is looked for; without an expression it is what was looked for last. -/
structure Sought where
  regex : Option Regex
  mode : Regex.Mode := {}

inductive Place where
  | line (number : Nat)
  | lastLine
  /-- A line and every so many lines behind it. -/
  | every (first step : Nat)
  | found (sought : Sought)

/-- Where a range of lines ends. -/
inductive RangeEnd where
  | upTo (place : Place)
  | after (lines : Nat)
  /-- The next line whose number is a multiple of this one. -/
  | multiple (of : Nat)

structure Selection where
  first : Option Place := none
  last : Option RangeEnd := none
  negated : Bool := false

/-- How letters of a replacement are written. -/
inductive Lettering where
  | upper
  | lower
  | upperNext
  | lowerNext
  | asTheyAre

inductive Part where
  | text (written : Text)
  /-- What a group matched, or all that was matched. -/
  | group (number : Nat)
  | lettering (l : Lettering)

structure Replacement where
  sought : Sought
  parts : List Part
  /-- The first match that is replaced. -/
  start : Nat := 1
  /-- Whether those behind it are replaced as well. -/
  all : Bool := false
  shows : Bool := false
  file : Option Text := none

inductive Edit where
  /-- Instructions between braces, and the place behind them. -/
  | block (stop : Nat)
  | blockEnd
  | label (name : Text)
  | append (text : Text)
  | insert (text : Text)
  | change (text : Text)
  | jump (name : Text)
  | jumpIfReplaced (name : Text)
  | jumpUnlessReplaced (name : Text)
  | delete
  | deleteLine
  | showName
  | showNumber
  | takeHeld
  | takeHeldToo
  | hold
  | holdToo
  | exchange
  | spell (width : Option Nat)
  | next
  | nextToo
  | showText
  | showLine
  | quit (silently : Bool) (status : Nat)
  | readFile (name : Text)
  | readLine (name : Text)
  | replace (r : Replacement)
  | writeTo (name : Text)
  | writeLineTo (name : Text)
  | exchangeChars (pairs : List (Char × Char))
  | clear

structure Instruction where
  selection : Selection
  edit : Edit

/-- The files that an instruction writes to. -/
def Edit.files : Edit → List Text
  | .writeTo name | .writeLineTo name => [name]
  | .replace r => r.file.toList
  | _ => []

/-- The label that an instruction goes to; without a name it goes to the end. -/
def Edit.target? : Edit → Option Text
  | .jump name | .jumpIfReplaced name | .jumpUnlessReplaced name => if name = [] then none else some name
  | _ => none

abbrev Script := List Instruction

def Script.placeOf? (s : Script) (name : Text) : Option Nat :=
  s.findIdx? fun i => match i.edit with
    | .label other => other = name
    | _ => false

/-- The first label that is gone to and is not there. -/
def Script.missingLabel? (s : Script) : Option Text :=
  (s.filterMap fun i => i.edit.target?).find? fun name => (s.placeOf? name).isNone

/-- Text as a replacement writes it. -/
structure Writer where
  written : Text := []
  steady : Lettering := .asTheyAre
  once : Option Lettering := none

namespace Writer

def cased (l : Lettering) (text : Text) : Text :=
  match l with
  | .upper => text.map Char.toUpper
  | .lower => text.map Char.toLower
  | _ => text

def put (w : Writer) (text : Text) : Writer :=
  match text, w.once with
  | c :: rest, some l =>
    let first := match l with
      | .upperNext => c.toUpper
      | .lowerNext => c.toLower
      | _ => c
    { w with written := w.written ++ first :: cased w.steady rest, once := none }
  | text, _ => { w with written := w.written ++ cased w.steady text }

def take (w : Writer) (m : Regex.Match) : Part → Writer
  | .text written => w.put written
  | .group 0 => w.put m.text
  | .group number => w.put ((m.groups.lookup number).getD [])
  | .lettering .upperNext => { w with once := some .upperNext }
  | .lettering .lowerNext => { w with once := some .lowerNext }
  | .lettering l => { w with steady := l, once := none }

end Writer

namespace Replacement

def textFor (r : Replacement) (m : Regex.Match) : Text :=
  (r.parts.foldl (fun w part => w.take m part) ({} : Writer)).written

/-- Puts the replacement in the place of matches; the text is given from a place on. -/
def fill (r : Replacement) : Nat → Nat → List Regex.Match → Text → Text
  | _, _, [], text => text
  | count, place, m :: rest, text =>
    let before := text.take (m.start - place)
    let after := text.drop (m.start - place + m.text.length)
    let isMeant := count = r.start ∨ (r.all ∧ r.start < count)
    before ++ (if isMeant then r.textFor m else m.text) ++
      fill r (count + 1) (m.start + m.text.length) rest after

/-- A text with what was replaced in it, if something was. -/
def replaced? (r : Replacement) (regex : Regex) (text : Text) : Option Text :=
  let found := regex.allMatches (fun _ _ => true) r.sought.mode text
  if found.length < r.start then none else some (r.fill 1 0 found text)

end Replacement

end Unjar.Shell.Editing
