import Unjar.FileSystem.Basic

/-!
Where a path leads. Links are followed as they are met, at most forty of them, and a name is looked
for only in a directory.
-/

namespace Unjar

/-- One step of a path from the location reached so far; `slashEnd` is a slash behind the last name. -/
inductive Step where
  | stay
  | ascend
  | descend (name : Bytes)
  | slashEnd
  deriving DecidableEq

def Step.ofSegment? (segment : Bytes) : Option Step :=
  if segment = [] then none
  else if segment = [dot] then some .stay
  else if segment = [dot, dot] then some .ascend
  else some (.descend segment)

def Path.steps (p : Path) : List Step :=
  p.segments.filterMap Step.ofSegment? ++ if p.segments.getLast? = some [] then [.slashEnd] else []

/-- Where a path leads: to a node, or to a name that is free in an existing directory. -/
inductive Spot where
  | taken (l : Location)
  | free (parent : Location) (name : Bytes) (slashed : Bool)
  deriving DecidableEq

/-- What the last name of a path is looked up for. -/
inductive Purpose where
  /-- The node it finally stands for. -/
  | use
  /-- The node itself, a link not followed. -/
  | inspect
  /-- A new directory: a link is in the way, wherever it leads. -/
  | makeDirectory
  /-- A file to be opened, and made if there is none. -/
  | openFile
  deriving DecidableEq

def nameMax : Nat := 255

/-- The longest path has one octet less. -/
def pathMax : Nat := 4096

def linksMax : Nat := 40

namespace FileSystem

/-- Whether a link met as the last name, with `rest` behind it, is followed. -/
def followsLast (purpose : Purpose) (rest : List Step) : Bool :=
  match rest, purpose with
  | [], .use | [], .openFile | [.slashEnd], .use | [.slashEnd], .inspect => true
  | [], _ | [.slashEnd], _ => false
  | _, _ => true

/-- Follows the steps from a directory. `next` goes on from a link: with its target's directory and
the steps that remain. -/
def follow (fs : FileSystem) (purpose : Purpose) (next : Location → List Step → Except Fault Spot) :
    Location → List Step → Except Fault Spot
  | l, [] => .ok (.taken l)
  | l, .stay :: rest | l, .slashEnd :: rest => follow fs purpose next l rest
  | l, .ascend :: rest => follow fs purpose next l.dropLast rest
  | l, .descend name :: rest =>
    if purpose = .openFile ∧ rest = [.slashEnd] then .ok (.free l name true)
    else if nameMax < name.length then .error .nameTooLong
    else match fs.node? (l ++ [name]) with
      | none =>
        match rest with
        | [] => .ok (.free l name false)
        | [.slashEnd] => .ok (.free l name true)
        | _ => .error .notFound
      | some (.directory _) => follow fs purpose next (l ++ [name]) rest
      | some (.link target) =>
        if followsLast purpose rest then
          if target.text = [] then .error .notFound
          else next (if target.isAbsolute then [] else l) (target.steps ++ rest)
        else .ok (.taken (l ++ [name]))
      | some _ =>
        if rest = [] ∨ (purpose = .makeDirectory ∧ rest = [.slashEnd]) then .ok (.taken (l ++ [name]))
        else .error .notADirectory

/-- `follow` with so many links left. -/
def followLinks (fs : FileSystem) (purpose : Purpose) : Nat → Location → List Step → Except Fault Spot
  | 0 => follow fs purpose fun _ _ => .error .tooManyLinks
  | links + 1 => follow fs purpose (followLinks fs purpose links)

def find (fs : FileSystem) (purpose : Purpose) (p : Path) : Except Fault Spot :=
  if p.text.contains 0 then .error .nulInName
  else if p.text = [] then .error .notFound
  else if pathMax ≤ p.text.length then .error .nameTooLong
  else followLinks fs purpose linksMax (if p.isAbsolute then [] else fs.here) p.steps

/-- The location of an existing node. -/
def locate (fs : FileSystem) (purpose : Purpose) (p : Path) : Except Fault Location := do
  match ← fs.find purpose p with
  | .taken l => .ok l
  | .free _ _ _ => .error .notFound

/-- The node a path stands for, links followed. -/
def stat? (fs : FileSystem) (p : Path) : Option Node :=
  match fs.locate .use p with
  | .ok l => fs.node? l
  | .error _ => none

def has (fs : FileSystem) (p : Path) : Bool :=
  (fs.stat? p).isSome

def isFile (fs : FileSystem) (p : Path) : Bool :=
  (fs.stat? p).any Node.isFile

def isDirectory (fs : FileSystem) (p : Path) : Bool :=
  (fs.stat? p).any Node.isDirectory

end FileSystem

end Unjar
