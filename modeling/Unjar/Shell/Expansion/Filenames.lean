import Unjar.Shell.Expansion.Fields
import Unjar.Shell.Permission

/-!
The names of files that a pattern stands for.
-/

namespace Unjar.Shell

/-- The pieces of a path between its slashes. -/
def pathPieces : List PatternChar → List (List PatternChar)
  | [] => [[]]
  | c :: rest =>
    if c.char = '/' then [] :: pathPieces rest
    else match pathPieces rest with
      | [] => [[c]]
      | piece :: pieces => (c :: piece) :: pieces

/-- The names in a directory that a pattern accepts. Those that start with a dot have to be asked for. -/
def namesIn (fs : FileSystem) (directory : Text) (piece : List PatternChar) : List Text :=
  match fs.list (pathOf (if directory = [] then ['.'] else directory)) with
  | .error _ => []
  | .ok entries =>
    let names := ['.'] :: ['.', '.'] :: entries.map fun entry => ofOctets entry.1
    let wantsHidden := piece.head?.any (·.char = '.')
    let pattern := Pattern.ofChars piece
    names.filter fun name => (wantsHidden || name.head? ≠ some '.') && pattern.accepts name

/-- The paths that pieces stand for, behind a part that is known. -/
def pathsFrom (fs : FileSystem) (known : Text) : List (List PatternChar) → List Text
  | [] => [known]
  | [piece] =>
    if isPattern piece then (namesIn fs known piece).map (known ++ ·)
    else
      let path := known ++ piece.map (·.char)
      if (fs.locateAdmitted .inspect (pathOf path)).toBool then [path] else []
  | piece :: rest =>
    if isPattern piece then
      (namesIn fs known piece).flatMap fun name => pathsFrom fs (known ++ name ++ ['/']) rest
    else pathsFrom fs (known ++ piece.map (·.char) ++ ['/']) rest

/-- The names of the files that a field stands for, in order, or the field itself if there are none. -/
def filenames (fs : FileSystem) (field : List Piece) : List Text :=
  let written := textOfPieces field
  if written.any "*?[".toList.contains then
    let pieces := pathPieces (patternChars field)
    if pieces.any isPattern then
      match Bytes.sortBy toOctets (pathsFrom fs [] pieces) with
      | [] => [written]
      | names => names
    else [written]
  else [written]

end Unjar.Shell
