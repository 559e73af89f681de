import Unjar.Archive.Checksum
import Unjar.Text.Utf8

/-!
The extra fields of an entry: each has a kind, a length and a content. They are read one after the
other, and may give the entry another name. Fields of unknown kinds are passed over.
-/

namespace Unjar.Archive

/-- A number in little-endian octets. -/
def number (octets : Bytes) : Nat :=
  octets.foldr (fun octet rest => octet.toNat + 256 * rest) 0

namespace Extra

/-- What the fields tell about: the name as the archive spells it, and the name and the comment in
UTF-8. -/
structure Labels where
  rawName : Bytes
  name : Bytes
  comment : Bytes
  deriving DecidableEq

inductive Flaw where
  /-- The octets end within a field. -/
  | cutOff
  /-- The field contradicts itself or the entry. -/
  | refused

abbrev Reader := StateT Bytes (Except Flaw)

def octets (count : Nat) : Reader Bytes := fun rest =>
  let piece := rest.take count
  if piece.length = count then .ok (piece, rest.drop count) else .error .cutOff

def numeral (width : Nat) : Reader Nat :=
  return number (← octets width)

def require (holds : Bool) : Reader Unit :=
  if holds then return else throw .refused

/-- Times of a file. The flags say which of three times are there, and the length must agree, but a
single time is always accepted. -/
def timestamps (length : Nat) : Reader Unit := do
  let flags ← numeral 1
  let count := ((List.range 3).filter flags.testBit).length
  require (flags < 8 && (length == 5 || length == 1 + 4 * count))
  let _ ← octets (length - 1)

/-- Times as Windows keeps them: one attribute with three times of eight octets. -/
def fileTimes (length : Nat) : Reader Unit := do
  require (length == 32)
  let _ ← octets 4
  require ((← numeral 2) == 1)
  require ((← numeral 2) == 24)
  let _ ← octets 24

/-- Another spelling of a label in UTF-8, guarded by the checksum of the label it stands for. -/
def respelling (label : Bytes) (length : Nat) : Reader Bytes := do
  let _ ← octets 1
  let guard ← numeral 4
  require (5 ≤ length)
  let content ← octets (length - 5)
  require (guard == (checksum label).toNat && Utf8.valid content)
  return content

def field (labels : Labels) : Reader Labels := do
  let kind ← numeral 2
  let length ← numeral 2
  match kind with
  | 0x000A =>
    fileTimes length
    return labels
  | 0x5455 =>
    timestamps length
    return labels
  | 0x6375 =>
    let comment ← respelling labels.comment length
    return { labels with comment }
  | 0x7075 =>
    let name ← respelling labels.rawName length
    return { labels with rawName := name, name }
  | _ =>
    let _ ← octets length
    return labels

/-- What the fields make of the labels; `none` if one of them is refused. A field that is cut off is
the end of them. -/
def applyAll : Nat → Labels → Bytes → Option Labels
  | 0, labels, _ => some labels
  | fuel + 1, labels, extra =>
    match (field labels).run extra with
    | .ok (labels, rest) => applyAll fuel labels rest
    | .error .cutOff => some labels
    | .error .refused => none

end Extra

end Unjar.Archive
