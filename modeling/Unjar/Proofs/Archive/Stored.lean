import Unjar.Archive.Content

/-!
Archives that are written down as the entries they hold.
-/

namespace Unjar

namespace Archive

/-- The octets of a number, the lowest first. -/
def littleEndian (width value : Nat) : Bytes :=
  (List.range width).map fun place => UInt8.ofNat (value >>> (8 * place))

/-- What both records of an entry tell. -/
def storedFields (name data : Bytes) : Bytes :=
  littleEndian 10 20 ++ littleEndian 4 (Archive.checksum data).toNat ++ littleEndian 4 data.length ++
    littleEndian 4 data.length ++ littleEndian 2 name.length ++ littleEndian 2 0

def storedEntry (name data : Bytes) : Bytes :=
  localSignature ++ storedFields name data ++ name ++ data

/-- The directory of entries, with the modes that are stored for them. -/
def storedDirectory : Nat → List (Bytes × Option Nat × Bytes) → Bytes
  | _, [] => []
  | offset, (name, mode, data) :: rest =>
    recordSignature ++ littleEndian 1 20 ++ littleEndian 1 (if mode.isSome then 3 else 0) ++ storedFields name data ++
      littleEndian 6 0 ++ littleEndian 4 (mode.getD 0 <<< 16) ++ littleEndian 4 offset ++ name ++
      storedDirectory (offset + (storedEntry name data).length) rest

def storedWithModes (entries : List (Bytes × Option Nat × Bytes)) : Bytes :=
  let data := entries.flatMap fun (name, _, data) => storedEntry name data
  let directory := storedDirectory 0 entries
  data ++ directory ++ endSignature ++ littleEndian 4 0 ++ littleEndian 2 entries.length ++
    littleEndian 2 entries.length ++ littleEndian 4 directory.length ++ littleEndian 4 data.length ++ littleEndian 2 0

/-- An archive of entries that are not compressed. -/
def stored (entries : List (Bytes × Bytes)) : Bytes :=
  storedWithModes (entries.map fun (name, data) => (name, none, data))

end Archive

end Unjar
