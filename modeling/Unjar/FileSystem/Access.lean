import Unjar.FileSystem.Lookup

/-!
What the mode of a node lets its owner do. Each step of a path is taken in a directory, which has to be
open for search.
-/

namespace Unjar.FileSystem

def readBit : Nat := 0o400

def writeBit : Nat := 0o200

/-- Of a directory this lets names be looked for in it, and of a file it lets it be run. -/
def searchBit : Nat := 0o100

def allows (mode bit : Nat) : Bool := mode &&& bit ≠ 0

/-- Whether what lies at a location allows something. What has no mode is in nobody's way. -/
def permits (fs : FileSystem) (bit : Nat) (l : Location) : Bool :=
  match fs.node? l with
  | some (.file mode _) | some (.directory mode) => allows mode bit
  | _ => true

/-- Whether the directories in which `follow` takes the steps may be searched, as far as it gets. `next`
goes on from a link. -/
def admitsFrom (fs : FileSystem) (purpose : Purpose) (next : Location → List Step → Bool) :
    Location → List Step → Bool
  | _, [] => true
  | l, .slashEnd :: rest => admitsFrom fs purpose next l rest
  | l, .stay :: rest => fs.permits searchBit l && admitsFrom fs purpose next l rest
  | l, .ascend :: rest => fs.permits searchBit l && admitsFrom fs purpose next l.dropLast rest
  | l, .descend name :: rest =>
    fs.permits searchBit l &&
      if nameMax < name.length then true
      else match fs.node? (l ++ [name]) with
        | some (.directory _) => admitsFrom fs purpose next (l ++ [name]) rest
        | some (.link target) =>
          if followsLast purpose rest ∧ target.text ≠ [] then
            next (if target.isAbsolute then [] else l) (target.steps ++ rest)
          else true
        | _ => true

/-- `admitsFrom` with so many links left. -/
def admitsLinks (fs : FileSystem) (purpose : Purpose) : Nat → Location → List Step → Bool
  | 0 => admitsFrom fs purpose fun _ _ => true
  | links + 1 => admitsFrom fs purpose (admitsLinks fs purpose links)

/-- Whether the directories on the way of a path may be searched. Nothing is searched for a path that is
refused as it is spelled. -/
def admits (fs : FileSystem) (purpose : Purpose) (p : Path) : Bool :=
  p.text.contains 0 || p.text = [] || pathMax ≤ p.text.length ||
    admitsLinks fs purpose linksMax (if p.isAbsolute then [] else fs.here) p.steps

/-- Where a path leads one who has to be let into the directories on its way. -/
def findAdmitted (fs : FileSystem) (purpose : Purpose) (p : Path) : Except Fault Spot :=
  if fs.admits purpose p then fs.find purpose p else .error .permissionDenied

/-- The location of an existing node, for one who has to be let into the directories on the way to it. -/
def locateAdmitted (fs : FileSystem) (purpose : Purpose) (p : Path) : Except Fault Location :=
  if fs.admits purpose p then fs.locate purpose p else .error .permissionDenied

end Unjar.FileSystem
