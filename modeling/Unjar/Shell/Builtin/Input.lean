import Unjar.Shell.Builtin.Basic
import Unjar.Shell.Expansion.Fields

/-!
The command that reads a line into variables.
-/

namespace Unjar.Shell

/-- A line taken from what can be read. -/
structure LineRead where
  /-- What was read, in segments between which nothing is split, the latest first. -/
  segments : List Segment := []
  /-- How many octets were taken. -/
  count : Nat := 0
  /-- Whether the line came to its end. -/
  ended : Bool := false

namespace LineRead

/-- Adds a character; what is behind a backslash is not split. -/
def put (l : LineRead) (c : Char) (escaped : Bool) : LineRead :=
  if escaped then
    { l with segments := ⟨.fields, []⟩ :: ⟨.whole, [.char c true]⟩ :: l.segments }
  else match l.segments with
    | segment :: before => { l with segments := { segment with pieces := .char c false :: segment.pieces } :: before }
    | [] => { l with segments := [⟨.fields, [.char c false]⟩] }

def take (l : LineRead) : LineRead := { l with count := l.count + 1 }

/-- Reads up to the end of a line. A backslash joins it with the next one unless it is `raw`. -/
def from' (raw : Bool) (l : LineRead) : Bytes → LineRead
  | [] => l
  | octet :: rest =>
    let c := Char.ofNat octet.toNat
    if octet = 0 then from' raw l.take rest
    else if c = '\n' then { l.take with ended := true }
    else if c = '\\' ∧ ¬ raw then
      match rest with
      | [] => l.take
      | 0x0A :: rest => from' raw l.take.take rest
      | next :: rest => from' raw (l.take.take.put (Char.ofNat next.toNat) true) rest
    else from' raw (l.take.put c false) rest

def ordered (l : LineRead) : List Segment :=
  l.segments.reverse.map fun s => { s with pieces := s.pieces.reverse }

end LineRead

/-- Assigns fields to names, nothing to those that have none. -/
def assignFields : List Text → List (List Piece) → Eval Unit
  | [], _ => return
  | name :: names, fields => do
    requireName name
    assign name (textOfPieces (fields.headD []))
    assignFields names fields.tail

def readLine : Builtin := fun arguments => do
  let (found, names) ← options "p:r" arguments
  if names = [] then failWith "arg count"
  let raw := found.any fun option => option.1 = 'r'
  match ← peekAll 0 endless with
  | .error _ => assignFields names []; setStatus 1
  | .ok data =>
    let line := LineRead.from' raw { segments := [⟨.fields, []⟩] } data
    skip 0 line.count (!line.ended)
    let separators := (← getProcess).separators
    assignFields names (fieldsOfSegments separators (some names.length) line.ordered)
    setStatus (if line.ended then 0 else 1)

end Unjar.Shell
