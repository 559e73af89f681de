import Unjar.Archive.Directory
import Unjar.Archive.Deflate

namespace Unjar.Archive

/-- Either slash at the end of a name marks a directory. -/
def Record.isDirectory (r : Record) : Bool :=
  r.name.getLast? = some 0x2F ∨ r.name.getLast? = some 0x5C

def storedMethod : Nat := 0

def deflatedMethod : Nat := 8

/-- Where the data of an entry starts, if it can be read at all. -/
def Record.dataStart (image : Bytes) (r : Record) : Except ZipError Nat :=
  if r.encrypted then .error .passwordRequired
  else match slice? image r.offset 30 with
    | none => .error (.unreadable .shortRecord)
    | some header =>
      if header.take 4 ≠ localSignature then .error .badLocalHeader
      else if r.method ≠ storedMethod ∧ r.method ≠ deflatedMethod then .error .unsupportedMethod
      else .ok (r.offset + 30 + field header 26 2 + field header 28 2)

/-- The octets of an entry in the order they come out, up to the fault that ends them, if any. The
checksum is compared when all of them are out. -/
def Record.content (image : Bytes) (start : Nat) (r : Record) : Bytes × Option Fault :=
  let packed := (image.drop start).take r.size
  let (data, fault) := if r.method = deflatedMethod then Deflate.expand packed else (packed, none)
  match fault with
  | some fault => (data, some fault)
  | none => (data, if (Archive.checksum data).toNat = r.checksum then none else some .badChecksum)

end Unjar.Archive
