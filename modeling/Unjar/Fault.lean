namespace Unjar

/-- Why reading, writing or starting something failed. -/
inductive Fault where
  | notFound
  | notExecutable
  | permissionDenied
  | alreadyExists
  | notADirectory
  | isADirectory
  | notEmpty
  | nameTooLong
  | tooManyLinks
  | noDevice
  | noSpace
  | nulInName
  | nulInArgument
  | shortRecord
  | badChecksum
  | corruptDeflate
  | incompleteDeflate
  | other (text : String)
  deriving DecidableEq

namespace Fault

def reason : Fault → String
  | notFound => "No such file or directory"
  | notExecutable => "Exec format error"
  | permissionDenied => "Permission denied"
  | alreadyExists => "File exists"
  | notADirectory => "Not a directory"
  | isADirectory => "Is a directory"
  | notEmpty => "Directory not empty"
  | nameTooLong => "File name too long"
  | tooManyLinks => "Too many levels of symbolic links"
  | noDevice => "No such device or address"
  | noSpace => "No space left on device"
  | nulInName => "file name contained an unexpected NUL byte"
  | nulInArgument => "nul byte found in provided data"
  | shortRecord => "failed to fill whole buffer"
  | badChecksum => "Invalid checksum"
  | corruptDeflate => "corrupt deflate stream"
  | incompleteDeflate => "incomplete deflate stream"
  | other text => text

/-- The number under which the system knows a fault of its own. -/
def number? : Fault → Option Nat
  | notFound => some 2
  | noDevice => some 6
  | notExecutable => some 8
  | permissionDenied => some 13
  | alreadyExists => some 17
  | notADirectory => some 20
  | isADirectory => some 21
  | noSpace => some 28
  | nameTooLong => some 36
  | notEmpty => some 39
  | tooManyLinks => some 40
  | _ => none

def message (fault : Fault) : String :=
  match fault.number? with
  | some number => s!"{fault.reason} (os error {number})"
  | none => fault.reason

end Fault

end Unjar
