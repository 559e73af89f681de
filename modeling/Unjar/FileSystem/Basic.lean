import Unjar.Path
import Unjar.Fault

/-!
A file system as a value: which node lies at which location. An operation answers with the file
system after it, so what a failed operation left behind can be said as well.
-/

namespace Unjar

/-- The names from the root down. -/
abbrev Location := List Bytes

/-- What holds nothing itself. A stream is one of the program that opens it. -/
inductive Device where
  /-- It takes everything, and there is nothing to be read. -/
  | null
  /-- As `null`, but what is read has no end. -/
  | zeros
  /-- As `zeros`, but there is no room for anything. -/
  | full
  | input
  | output
  | errors
  /-- No program has a terminal. -/
  | terminal
  deriving DecidableEq

inductive Node where
  | file (mode : Nat) (data : Bytes)
  | directory (mode : Nat)
  | link (target : Path)
  | device (device : Device)
  deriving DecidableEq

def Node.isDirectory : Node → Bool
  | .directory _ => true
  | _ => false

def Node.isFile : Node → Bool
  | .file _ _ => true
  | _ => false

def Node.isDevice : Node → Bool
  | .device _ => true
  | _ => false

structure FileSystem where
  nodes : List (Location × Node)
  /-- The directory in which relative paths start. -/
  here : Location
  deriving DecidableEq

namespace FileSystem

def node? (fs : FileSystem) (l : Location) : Option Node :=
  fs.nodes.lookup l

def isDirectoryAt (fs : FileSystem) (l : Location) : Bool :=
  (fs.node? l).any Node.isDirectory

/-- Puts a node at a location, in place of the one that is there. -/
def put (fs : FileSystem) (l : Location) (node : Node) : FileSystem :=
  { fs with nodes := (l, node) :: fs.nodes.filter (·.1 ≠ l) }

/-- Takes away a location and everything below it. -/
def prune (fs : FileSystem) (l : Location) : FileSystem :=
  { fs with nodes := fs.nodes.filter fun (at', _) => ¬ l.isPrefixOf at' }

def childName? (parent l : Location) : Option Bytes :=
  match l.getLast? with
  | some name => if l.dropLast = parent then some name else none
  | none => none

/-- What lies directly in a directory, in the order of the names. -/
def entriesAt (fs : FileSystem) (l : Location) : List (Bytes × Node) :=
  Bytes.sortBy Prod.fst (fs.nodes.filterMap fun (at', node) =>
    (childName? l at').map fun name => (name, node))

theorem lookup_filter_location (nodes : List (Location × Node)) (keep : Location → Bool) (m : Location) :
    (nodes.filter fun entry => keep entry.1).lookup m = if keep m then nodes.lookup m else none := by
  induction nodes with
  | nil => simp
  | cons entry rest ih =>
    obtain ⟨k, node⟩ := entry
    by_cases here : m = k
    · subst here
      by_cases kept : keep m <;> simp [kept, ih]
    · have differs : (m == k) = false := by simpa using here
      by_cases kept : keep k <;> simp [kept, List.lookup_cons, differs, ih]

theorem node?_put (fs : FileSystem) (l m : Location) (node : Node) :
    (fs.put l node).node? m = if m = l then some node else fs.node? m := by
  have others := lookup_filter_location fs.nodes (fun k => k ≠ l) m
  by_cases same : m = l
  · subst same; simp [put, node?]
  · have differs : (m == l) = false := by simpa using same
    simpa [put, node?, List.lookup_cons, differs, same] using others

theorem node?_prune (fs : FileSystem) (l m : Location) :
    (fs.prune l).node? m = if l <+: m then none else fs.node? m := by
  have others := lookup_filter_location fs.nodes (fun k => !l.isPrefixOf k) m
  simp only [prune, node?, decide_not, Bool.decide_eq_true] at others ⊢
  rw [others]
  by_cases under : l <+: m
  · simp [List.isPrefixOf_iff_prefix.2 under, under]
  · have not_under : l.isPrefixOf m = false := by
      simpa [← List.isPrefixOf_iff_prefix] using under
    simp [not_under, under]

end FileSystem

end Unjar
