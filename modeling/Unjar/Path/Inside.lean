import Unjar.Path.Clean

namespace Unjar.Path

/-- An entry name may separate its segments with either slash. -/
def ofEntryName (name : Bytes) : Path :=
  ⟨name.map fun octet => if octet = backslash then slash else octet⟩

/-- Where an entry name leads from `dest`, by spelling alone: the path, if it lies strictly below
`dest`, and otherwise the path as the error. -/
def resolveInside (dest : Path) (name : Bytes) : Except Path Path :=
  let root := dest.clean
  let resolved := (root.join (ofEntryName name)).clean
  if resolved.Same root ∨ ¬ resolved.startsWith root then .error resolved else .ok resolved

end Unjar.Path
