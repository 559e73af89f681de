import Unjar.Text.Utf8

namespace Unjar

/-- A path as it is spelled. Spellings with the same components lead to the same place. -/
structure Path where
  text : Bytes
  deriving DecidableEq, Inhabited

inductive Component where
  | root
  | here
  | up
  | name (segment : Bytes)
  deriving DecidableEq

def slash : UInt8 := 0x2F

def dot : UInt8 := 0x2E

def backslash : UInt8 := 0x5C

namespace Component

/-- Empty segments and inner `.` name nothing. -/
def ofSegment? (segment : Bytes) : Option Component :=
  if segment = [] ∨ segment = [dot] then none
  else if segment = [dot, dot] then some up
  else some (name segment)

def text : Component → Bytes
  | root => [slash]
  | here => [dot]
  | up => [dot, dot]
  | name segment => segment

def isName : Component → Bool
  | name _ => true
  | _ => false

end Component

namespace Path

def segments (p : Path) : List Bytes :=
  p.text.splitOn slash

def isAbsolute (p : Path) : Bool :=
  p.text.head? == some slash

/-- A leading `/` and a leading `.` are components; neither is one further on. -/
def anchor (p : Path) : List Component :=
  if p.isAbsolute then [.root]
  else if p.segments.head? = some [dot] then [.here]
  else []

def components (p : Path) : List Component :=
  p.anchor ++ p.segments.filterMap Component.ofSegment?

/-- Two spellings of one path. -/
def Same (p q : Path) : Prop :=
  p.components = q.components

instance (p q : Path) : Decidable (p.Same q) :=
  inferInstanceAs (Decidable (_ = _))

def startsWith (p base : Path) : Bool :=
  base.components.isPrefixOf p.components

/-- The path that spells these components. -/
def ofComponents : List Component → Path
  | .root :: rest => ⟨slash :: Bytes.joinWith slash (rest.map Component.text)⟩
  | components => ⟨Bytes.joinWith slash (components.map Component.text)⟩

/-- An absolute path replaces what it is joined to. -/
def join (base p : Path) : Path :=
  if p.isAbsolute then p
  else if base.text = [] ∨ base.text.getLast? = some slash then ⟨base.text ++ p.text⟩
  else ⟨base.text ++ slash :: p.text⟩

def child (base : Path) (name : Bytes) : Path :=
  base.join ⟨name⟩

/-- A segment that names nothing unless it comes first. -/
def isNoise (segment : Bytes) : Bool :=
  segment = [] ∨ segment = [dot]

/-- The segments up to the last one that is a component. -/
def trimEnd : List Bytes → List Bytes
  | [] => []
  | first :: body => first :: (body.reverse.dropWhile isNoise).reverse

def ofSegments (absolute : Bool) (segments : List Bytes) : Path :=
  if absolute ∧ segments = [[]] then ⟨[slash]⟩ else ⟨Bytes.joinWith slash segments⟩

/-- The spelling without its last component; the root and the empty path have no parent. -/
def parent (p : Path) : Option Path :=
  match p.components.getLast? with
  | none | some .root => none
  | some _ =>
    let segments := trimEnd p.segments
    if segments.length ≤ 1 then some ⟨[]⟩
    else some (ofSegments p.isAbsolute (trimEnd segments.dropLast))

def fileName (p : Path) : Option Bytes :=
  match p.components.getLast? with
  | some (.name name) => some name
  | _ => none

/-- A name split at its last dot. A name whose only dot comes first has no extension. -/
def splitName (name : Bytes) : Bytes × Option Bytes :=
  let backwards := name.reverse
  match backwards.dropWhile (· ≠ dot) with
  | [] | [_] => (name, none)
  | _ :: stem => (stem.reverse, some (backwards.takeWhile (· ≠ dot)).reverse)

def stem (p : Path) : Option Bytes :=
  p.fileName.map fun name => (splitName name).1

def extension (p : Path) : Option Bytes :=
  p.fileName.bind fun name => (splitName name).2

def withEnding (stem extension : Bytes) : Bytes :=
  if extension = [] then stem else stem ++ dot :: extension

/-- Gives the file name another extension, or none. A path without a file name stays as it is. -/
def setExtension (p : Path) (extension : Bytes) : Path :=
  match p.stem with
  | none => p
  | some stem => ⟨Bytes.joinWith slash ((trimEnd p.segments).dropLast ++ [withEnding stem extension])⟩

/-- As many octets as the old extension has are cut off the spelling before the new extension is
set, so a name that loses its last dot this way may stop being a file name. -/
def withExtension (p : Path) (extension : Bytes) : Path :=
  match p.extension with
  | none => p.setExtension extension
  | some old => setExtension ⟨p.text.take (p.text.length - old.length)⟩ extension

/-- What follows `count` components, without the separators and dots around it. -/
def afterComponents : Nat → List Bytes → List Bytes
  | 0, segments => segments.dropWhile isNoise
  | _ + 1, [] => []
  | count + 1, segment :: rest =>
    if isNoise segment then afterComponents (count + 1) rest else afterComponents count rest

/-- The path relative to `base`, compared component by component. -/
def stripPrefix? (p base : Path) : Option Path :=
  if p.startsWith base then
    if base.components = [] then some (ofSegments p.isAbsolute (trimEnd p.segments))
    else
      let body := if p.anchor = [] then p.segments else p.segments.tail
      let rest := afterComponents (base.components.length - p.anchor.length) body
      some ⟨Bytes.joinWith slash (trimEnd rest)⟩
  else none

def display (p : Path) : String :=
  Utf8.display p.text

end Path

end Unjar
