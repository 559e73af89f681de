import Unjar.Bytes

namespace Unjar.Archive

def checksumBit (crc : UInt32) : UInt32 :=
  if crc &&& 1 = 1 then (crc >>> 1) ^^^ 0xEDB88320 else crc >>> 1

def checksumStep (crc : UInt32) (octet : UInt8) : UInt32 :=
  Nat.repeat checksumBit 8 (crc ^^^ octet.toUInt32)

/-- The cyclic redundancy check of archives: polynomial 0x04C11DB7, reflected, with both ends
inverted. -/
def checksum (data : Bytes) : UInt32 :=
  data.foldl checksumStep 0xFFFFFFFF ^^^ 0xFFFFFFFF

end Unjar.Archive
