import Unjar.Archive.Extra
import Unjar.Text.CodePage437
import Unjar.Fault

/-!
The central directory of an archive. It stands before an end record, which is looked for from the
end of the archive backwards: whatever is put before the archive or after it is accepted.
-/

namespace Unjar.Archive

inductive ZipError where
  | unreadable (fault : Fault)
  | noEndRecord
  | commentCutOff
  | badDirectoryOffset
  | noDirectory
  | badLocalHeader
  | passwordRequired
  | unsupportedMethod
  deriving DecidableEq

def ZipError.message : ZipError → String
  | .unreadable _ => "i/o error"
  | .noEndRecord => "invalid Zip archive: Could not find EOCD"
  | .commentCutOff => "invalid Zip archive: EOCD comment exceeds file boundary"
  | .badDirectoryOffset => "invalid Zip archive: Invalid CDFH offset in EOCD"
  | .noDirectory => "invalid Zip archive: No CDFH found"
  | .badLocalHeader => "invalid Zip archive: Invalid local file header"
  | .passwordRequired => "unsupported Zip archive: Password required to decrypt file"
  | .unsupportedMethod => "unsupported Zip archive: Compression method not supported"

/-- The entry of a central directory. -/
structure Record where
  /-- In UTF-8, whatever the archive holds. -/
  name : Bytes
  mode : Option Nat
  encrypted : Bool
  method : Nat
  checksum : Nat
  /-- The size of the stored data. -/
  size : Nat
  /-- Where the local header is. -/
  offset : Nat
  deriving DecidableEq

def field (record : Bytes) (start width : Nat) : Nat :=
  number ((record.drop start).take width)

def slice? (image : Bytes) (start length : Nat) : Option Bytes :=
  let piece := (image.drop start).take length
  if piece.length = length then some piece else none

def endSignature : Bytes := [0x50, 0x4B, 0x05, 0x06]

def recordSignature : Bytes := [0x50, 0x4B, 0x01, 0x02]

def localSignature : Bytes := [0x50, 0x4B, 0x03, 0x04]

/-- The places at which a signature stands, the first place being `start`. -/
def placesFrom (signature : Bytes) : Nat → Bytes → List Nat
  | _, [] => []
  | start, octet :: rest =>
    if signature.isPrefixOf (octet :: rest) then start :: placesFrom signature (start + 1) rest
    else placesFrom signature (start + 1) rest

def places (signature image : Bytes) : List Nat :=
  placesFrom signature 0 image

/-- The permissions of an entry. Unix systems store a mode, and file systems of DOS the flags for
read-only and for directories; nothing else is understood. -/
def modeOf (system attributes : Nat) : Option Nat :=
  if attributes = 0 then none
  else if system = 3 then some (attributes >>> 16)
  else if system = 0 then
    let mode := if attributes.testBit 4 then 0o775 else 0o664
    some (if attributes.testBit 0 then mode &&& 0o555 else mode)
  else none

/-- Where the directory of an end record starts, and how far the archive is shifted against its own
offsets. -/
structure Found where
  start : Nat
  shift : Nat

/-- Octets at the front, and what follows them. -/
def takeFront? (count : Nat) (octets : Bytes) : Option (Bytes × Bytes) :=
  let front := octets.take count
  if front.length = count then some (front, octets.drop count) else none

/-- The record at the front of a directory, and what follows it. The local header of an entry lies
before the directory. -/
def readRecord? (found : Found) (octets : Bytes) : Option (Record × Bytes) := do
  let (header, rest) ← takeFront? 46 octets
  if header.take 4 ≠ recordSignature then none
  let (rawName, rest) ← takeFront? (field header 28 2) rest
  let (extra, rest) ← takeFront? (field header 30 2) rest
  let (rawComment, rest) ← takeFront? (field header 32 2) rest
  let flags := field header 8 2
  let decode := if flags.testBit 11 then Utf8.lossy else CodePage437.toUtf8
  let labels ← Extra.applyAll extra.length { rawName, name := decode rawName, comment := decode rawComment } extra
  let method := field header 10 2
  let offset := field header 42 4 + found.shift
  if method = 99 ∨ found.start ≤ offset then none
  return ({
    name := labels.name
    mode := modeOf (field header 5 1) (field header 38 4)
    encrypted := flags.testBit 0
    method
    checksum := field header 16 4
    size := field header 20 4
    offset }, rest)

def readRecords? (found : Found) : Nat → Bytes → Option (List Record)
  | 0, _ => some []
  | count + 1, octets => do
    let (record, rest) ← readRecord? found octets
    return record :: (← readRecords? found count rest)

/-- Reads the end record at a place: the end record itself, or what is wrong with it. -/
def findDirectory (image : Bytes) (place : Nat) : Except ZipError Found := do
  let some header := slice? image place 22 | .error (.unreadable .shortRecord)
  let commentLength := field header 20 2
  let some _ := slice? image (place + 22) commentLength | .error .commentCutOff
  let offset := field header 16 4
  if field header 10 2 = 0 then
    return ⟨offset + (place - offset), place - offset⟩
  else if place ≤ offset then .error .badDirectoryOffset
  else
    match places recordSignature ((image.take place).drop offset) with
    | [] => .error .noDirectory
    | ahead :: _ => return ⟨offset + ahead, ahead⟩

/-- All records of the directory that an end record stands for. -/
def readDirectory? (image : Bytes) (place : Nat) (found : Found) : Option (List Record) :=
  let header := image.drop place
  if field header 4 2 ≠ field header 6 2 then none
  else readRecords? found (field header 8 2) (image.drop found.start)

/-- Of two faults of end records, the one that is told: an end record that is cut off gives way to any
other fault. -/
def weightier (earlier later : ZipError) : ZipError :=
  match later with
  | .unreadable _ | .commentCutOff => if earlier = .noEndRecord then later else earlier
  | _ => later

/-- Tries the end records one after the other. An end record that is not sound itself is passed over;
a directory that cannot be read starts the search anew before its end record. -/
def search (image : Bytes) : ZipError → List Nat → Except ZipError (List Record)
  | error, [] => .error error
  | error, place :: earlier =>
    match findDirectory image place with
    | .error fault => search image (weightier error fault) earlier
    | .ok found =>
      match readDirectory? image place found with
      | some records => .ok records
      | none => search image .noEndRecord earlier

/-- Of records with one name, the first gives the place and the last gives the rest. -/
def collapse : List Record → List Record
  | records => records.foldl (fun kept record =>
      if kept.any (·.name == record.name) then
        kept.map fun other => if other.name = record.name then record else other
      else kept ++ [record]) []

/-- The entries of the archive in an image. -/
def directory (image : Bytes) : Except ZipError (List Record) := do
  return collapse (← search image .noEndRecord (places endSignature image).reverse)

end Unjar.Archive
