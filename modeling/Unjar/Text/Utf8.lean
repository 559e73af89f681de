import Unjar.Bytes

/-!
UTF-8 read one octet at a time. Text that is not UTF-8 is still shown: every longest front that no
encoding continues stands as one replacement character.
-/

namespace Unjar.Utf8

/-- A character of which `owed` octets are still to come, the next one within `low` and `high`. -/
structure Unfinished where
  taken : Bytes
  owed : Nat
  low : UInt8
  high : UInt8

inductive Piece where
  | scalar (octets : Bytes)
  | broken (octets : Bytes)

/-- What may follow a first octet: how many octets, and the range of the first of them. The ranges
keep out overlong forms, surrogates and everything above U+10FFFF. -/
def following (first : UInt8) : Option (Nat × UInt8 × UInt8) :=
  if first < 0x80 then some (0, 0, 0)
  else if first < 0xC2 then none
  else if first < 0xE0 then some (1, 0x80, 0xBF)
  else if first = 0xE0 then some (2, 0xA0, 0xBF)
  else if first = 0xED then some (2, 0x80, 0x9F)
  else if first < 0xF0 then some (2, 0x80, 0xBF)
  else if first = 0xF0 then some (3, 0x90, 0xBF)
  else if first < 0xF4 then some (3, 0x80, 0xBF)
  else if first = 0xF4 then some (3, 0x80, 0x8F)
  else none

def start (octet : UInt8) : List Piece × Option Unfinished :=
  match following octet with
  | none => ([.broken [octet]], none)
  | some (0, _, _) => ([.scalar [octet]], none)
  | some (owed, low, high) => ([], some ⟨[octet], owed, low, high⟩)

/-- An octet that cannot continue the character under way ends it broken and starts afresh. -/
def step : Option Unfinished → UInt8 → List Piece × Option Unfinished
  | none, octet => start octet
  | some character, octet =>
    if character.low ≤ octet ∧ octet ≤ character.high then
      if character.owed = 1 then ([.scalar (character.taken ++ [octet])], none)
      else ([], some ⟨character.taken ++ [octet], character.owed - 1, 0x80, 0xBF⟩)
    else
      let (pieces, next) := start octet
      (.broken character.taken :: pieces, next)

def piecesFrom : Option Unfinished → Bytes → List Piece
  | none, [] => []
  | some character, [] => [.broken character.taken]
  | state, octet :: rest => (step state octet).1 ++ piecesFrom (step state octet).2 rest

def pieces (bytes : Bytes) : List Piece :=
  piecesFrom none bytes

def Piece.isScalar : Piece → Bool
  | .scalar _ => true
  | .broken _ => false

def valid (bytes : Bytes) : Bool :=
  (pieces bytes).all Piece.isScalar

/-- U+FFFD, which stands for what is not UTF-8. -/
def replacement : Bytes := [0xEF, 0xBF, 0xBD]

def Piece.octets : Piece → Bytes
  | .scalar octets => octets
  | .broken _ => replacement

/-- The text with every broken piece replaced. -/
def lossy (bytes : Bytes) : Bytes :=
  (pieces bytes).flatMap Piece.octets

def tailBits (value : Nat) (octet : UInt8) : Nat :=
  value * 64 + octet.toNat % 64

def scalarValue : Bytes → Nat
  | [] => 0
  | first :: rest =>
    let lead := match rest.length with
      | 0 => first.toNat
      | 1 => first.toNat % 32
      | 2 => first.toNat % 16
      | _ => first.toNat % 8
    rest.foldl tailBits lead

def Piece.char : Piece → Char
  | .scalar octets => Char.ofNat (scalarValue octets)
  | .broken _ => '\uFFFD'

def chars (bytes : Bytes) : List Char :=
  (pieces bytes).map Piece.char

/-- The text as it is shown to a reader. -/
def display (bytes : Bytes) : String :=
  String.ofList (chars bytes)

def encode (text : String) : Bytes :=
  text.toList.flatMap String.utf8EncodeChar

end Unjar.Utf8
