import Unjar.Text.Utf8

/-!
Long options used to be written with one dash. Such arguments are given their second dash before
the command line is read.
-/

namespace Unjar.CommandLine

def dash : UInt8 := 0x2D

def equals : UInt8 := 0x3D

/-- From here on every argument is a positional one. -/
def terminator : Bytes := [dash, dash]

def legacyNames : List Bytes :=
  [ascii "jar", ascii "out", ascii "cfr"]

/-- An argument `-name` or `-name=value` with a legacy name, and UTF-8 throughout. -/
def isLegacy (argument : Bytes) : Bool :=
  match argument with
  | [] => false
  | first :: option =>
    first == dash && Utf8.valid argument && legacyNames.contains (option.takeWhile (· ≠ equals))

def modernize (argument : Bytes) : Bytes :=
  if isLegacy argument then dash :: argument else argument

def normalize : List Bytes → List Bytes
  | [] => []
  | argument :: rest =>
    if argument = terminator then argument :: rest
    else modernize argument :: normalize rest

end Unjar.CommandLine
